import TASQuake.Lib.Run
import TASQuake.Model.Optimizer
import TASQuake.Model.Mutators
import TASQuake.Interface.RationalArith

/-!
# What one optimisation leaves to the next

`Optimizer::Init` does not reset the health, armour and items of `m_currentBest`, which are
overwritten before anything reads them, and it does not reset `m_runConditions.m_uItems`, which is
overwritten only if the new settings ask for secondary goals.  `left` replaces what is left over;
every operation commutes with it as long as the keys left over are the same.
-/

namespace TASQuake.Analysis.OptimizerIsolation

open Lib Optimizer GameOpt RunConditions Option

variable {F R A : Type}

/-! ## Leftovers -/

/-- What `ResetIteration` leaves of a run. -/
structure Leftover (R : Type) where
  items : ℕ
  hp : R
  ap : R

/-- The run with other leftovers. -/
def leftRun (l : Leftover R) (run : OptimizerRun F R) : OptimizerRun F R :=
  { run with items := l.items, hp := l.hp, ap := l.ap }

/-- The optimizer with other leftovers in its best run and its conditions. -/
def left (l : Leftover R) (items : ℕ) (s : Optimizer F R A) : Optimizer F R A :=
  { s with
    currentBest := leftRun l s.currentBest
    runConditions := { s.runConditions with items := items } }

/-- Both ask for the same keys. -/
def SameKeys (items items' : ℕ) : Prop :=
  items.testBit 17 = items'.testBit 17 ∧ items.testBit 18 = items'.testBit 18

/-- The conditions are still to be taken from the first run, or ask for the same keys. -/
def Harmless (s : Optimizer F R A) (items : ℕ) : Prop :=
  (s.settings.secondaryGoals = true ∧ s.runConditions.initialized = false) ∨
    SameKeys s.runConditions.items items

variable (ops : Arith R) {items : ℕ}

variable {s : Optimizer F R A}

variable {alg : AlgorithmOps F R A}

variable {t : Optimizer F R A}

/-- The optimizer with the frame recorded, before it is decided whether the iteration ends. -/
def recorded [LinearOrder R] (s : Optimizer F R A) (data : ExtendedFrameData R) :
    Optimizer F R A :=
  { s with
    maxTime := if s.iteration = 0 then max s.maxTime data.time else s.maxTime
    currentRun := recordFrame s.currentRun data }

theorem onRunnerFrame_eq [LinearOrder R] (alg : AlgorithmOps F R A) (s : Optimizer F R A)
    (data : ExtendedFrameData R) :
    s.onRunnerFrame ops alg data =
      if (recorded s data).currentRun.playbackInfo.currentFrame = (recorded s data).lastFrame ∨
          (recorded s data).maxTime < data.time then
        (recorded s data).finishIteration ops alg
      else if (recorded s data).lastFrame <
          (recorded s data).currentRun.playbackInfo.currentFrame then
        some (recorded s data, .newIteration)
      else some (recorded s data, .continueIteration) := by
  unfold onRunnerFrame recorded
  by_cases hfirst : s.iteration = 0
  · simp only [if_pos hfirst]
  · simp only [if_neg hfirst]

variable {a b : Optimizer F R A}

/-- What the game can see of an optimisation: the last answer, the efficacies, and the best
script. -/
structure View (F R : Type) where
  state : OptimizerState
  efficacy : R
  bestEfficacy : R
  bestScript : TASScript F
deriving DecidableEq

/-- What the game sees now. -/
def view (g : GameOpt F R A) : View F R :=
  { state := g.state
    efficacy := g.opt.currentRun.efficacy
    bestEfficacy := g.opt.currentBest.efficacy
    bestScript := g.opt.currentBest.script }

def exampleArith : MutatorArith ℚ ℚ := rationalArith fun _ _ => 0

def exampleAlgorithms : AlgorithmOps ℚ ℚ (Algorithm ℚ ℚ) :=
  algorithmOps exampleArith fun _ => ⟨⟨0, 0, 0⟩, 0⟩

end TASQuake.Analysis.OptimizerIsolation
