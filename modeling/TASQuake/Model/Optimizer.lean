import TASQuake.Model.Script
import TASQuake.Model.Random
import Mathlib.Order.Lattice

/-!
# The optimizer

`OptimizerRun`, `RunConditions` and `Optimizer` of libtasquake (optimizer.hpp,
optimizer.cpp:10-563): running a script frame by frame, scoring the run, keeping the best one
and letting an algorithm mutate the next candidate.

Doubles are elements of a linear order `R`, so NaN is excluded; what is computed on them is a
field of `Arith`.  An algorithm is a state of a type `A` with the virtual functions of
`OptimizerAlgorithm`, collected in `AlgorithmOps`.  The outputs of `m_RNG` still to come are
part of the state.
-/

namespace TASQuake

/-- `Vector`. -/
structure Vec (R : Type) where
  x : R
  y : R
  z : R
deriving DecidableEq

/-- `FrameData`. -/
structure FrameData (R : Type) where
  pos : Vec R
  velTheta : R
deriving DecidableEq

/-- `ExtendedFrameData`. -/
structure ExtendedFrameData (R : Type) where
  frameData : FrameData R
  hp : R
  ap : R
  time : R
  died : Bool
  intermission : Bool
  teleported : Bool
deriving DecidableEq

/-- The arithmetic on doubles. -/
structure Arith (R : Type) where
  ofInt : Int → R
  add : R → R → R
  sub : R → R → R
  neg : R → R
  div : R → R → R
  abs : R → R
  /-- `std::numeric_limits<double>::lowest()` -/
  lowest : R
  /-- `Vector::Distance` -/
  distance : Vec R → Vec R → R
  /-- `m_RNG() / (double)m_RNG.max()`, for an output of `m_RNG` -/
  unit : ℕ → R

/-- `OptimizerState`. -/
inductive OptimizerState where
  | continueIteration
  | newIteration
  | stop
deriving DecidableEq

/-- `OptimizerGoal`. -/
inductive OptimizerGoal where
  | undetermined
  | plusX
  | negX
  | plusY
  | negY
  | time
  | plusZ
  | negZ
  | kills
  | teleporter
  | position
deriving DecidableEq

/-- `OptimizerRun`. -/
structure OptimizerRun (F R : Type) where
  efficacy : R
  playbackInfo : PlaybackInfo F
  finishedLevel : Bool := false
  died : Bool := false
  items : ℕ := 0
  levelTime : R
  teleportTime : R
  vecData : List (FrameData R) := []
  kills : ℕ := 0
  secrets : ℕ := 0
  centerPrints : ℕ := 0
  hp : R
  ap : R

/-- `RunConditions`. -/
structure RunConditions (R : Type) where
  initialized : Bool := false
  vecNodes : List (Vec R) := []
  kills : ℕ := 0
  secrets : ℕ := 0
  centerPrints : ℕ := 0
  items : ℕ := 0
  totalHP : R

/-- `OptimizerSettings`; `algorithms` is what `InitAlgorithms` makes of the two lists. -/
structure OptimizerSettings (R A : Type) where
  goal : OptimizerGoal := .undetermined
  targetPos : Vec R
  resetToBestIterations : ℕ := 3
  giveUpAfterNoProgress : ℕ := 99999
  endOffset : Int := 36
  frames : Int := -1
  minTotalHP : Int := 1
  algorithms : List A
  secondaryGoals : Bool := false
  useNodes : Bool := true

namespace OptimizerRun

variable {F R : Type}

/-- The script of a run. -/
def script (self : OptimizerRun F R) : TASScript F := self.playbackInfo.currentScript

/-- `OptimizerRun::ResetIteration`. (optimizer.cpp:383-396) -/
def resetIteration (ops : Arith R) (self : OptimizerRun F R) : OptimizerRun F R :=
  { self with
    playbackInfo := { self.playbackInfo with currentFrame := 0, pauseFrame := 0 }
    vecData := []
    finishedLevel := false
    died := false
    levelTime := ops.ofInt 0
    centerPrints := 0
    kills := 0
    secrets := 0
    teleportTime := ops.ofInt 1000
    efficacy := ops.lowest }

/-- `OptimizerRun::IsBetterThan`. (optimizer.cpp:546-561) -/
def isBetterThan [LinearOrder R] (self run : OptimizerRun F R) : Bool :=
  if self.vecData.isEmpty then false
  else if run.vecData.isEmpty then true
  else decide (run.efficacy < self.efficacy)

/-- `AutoGoal` from the last two positions. (optimizer.cpp:330-354) -/
def autoGoalOf [LinearOrder R] (ops : Arith R) (secondLast last : Vec R) : OptimizerGoal :=
  let plusx := ops.sub last.x secondLast.x
  let negx := ops.neg plusx
  let plusy := ops.sub last.y secondLast.y
  let negy := ops.neg plusy
  if negx ≤ plusx ∧ ops.abs plusy ≤ plusx then .plusX
  else if plusx ≤ negx ∧ ops.abs plusy ≤ negx then .negX
  else if negy ≤ plusy ∧ ops.abs plusx ≤ plusy then .plusY
  else .negY

/-- `AutoGoal` of a run. (optimizer.cpp:356-371) -/
def autoGoal [LinearOrder R] (ops : Arith R) (self : OptimizerRun F R) : OptimizerGoal :=
  match self.vecData.reverse with
  | [] => .undetermined
  | [_] => .undetermined
  | last :: secondLast :: _ =>
    if self.finishedLevel then .time else autoGoalOf ops secondLast.pos last.pos

end OptimizerRun

namespace RunConditions

variable {F R A : Type}

/-- Every 36th position, from the first one on. (optimizer.cpp:400-406) -/
def everyNode : ℕ → List (FrameData R) → List (Vec R)
  | _, [] => []
  | 0, data :: rest => data.pos :: everyNode 35 rest
  | skip + 1, _ :: rest => everyNode skip rest

/-- `RunConditions::Init`. (optimizer.cpp:398-425) -/
def init [LinearOrder R] (ops : Arith R) (self : RunConditions R) (run : OptimizerRun F R)
    (settings : OptimizerSettings R A) : RunConditions R :=
  let self :=
    if settings.useNodes then { self with vecNodes := self.vecNodes ++ everyNode 0 run.vecData }
    else self
  let self :=
    if settings.secondaryGoals then
      { self with
        totalHP := ops.add run.ap run.hp
        centerPrints := run.centerPrints
        kills := run.kills
        secrets := run.secrets
        items := run.items }
    else { self with centerPrints := 0, kills := 0, secrets := 0 }
  { self with totalHP := max self.totalHP (ops.ofInt settings.minTotalHP), initialized := true }

/-- The nodes left after a run has passed its positions: a node is passed when the run comes
nearer than 100 to it. (optimizer.cpp:429-437) -/
def nodesLeft [LinearOrder R] (ops : Arith R) : List (Vec R) → List (FrameData R) → List (Vec R)
  | nodes, [] => nodes
  | [], _ => []
  | node :: nodes, data :: rest =>
    if ops.distance node data.pos < ops.ofInt 100 then nodesLeft ops nodes rest
    else nodesLeft ops (node :: nodes) rest

/-- Whether a key, given by its bit in `m_uItems`, is required and missing. -/
def missesKey (self : RunConditions R) (run : OptimizerRun F R) (bit : ℕ) : Bool :=
  self.items.testBit bit && !run.items.testBit bit

/-- `RunConditions::FulfillsConditions`; `IT_KEY1` and `IT_KEY2` are the bits 17 and 18.
(optimizer.cpp:427-464) -/
def fulfillsConditions [LinearOrder R] (ops : Arith R) (self : RunConditions R)
    (run : OptimizerRun F R) : Bool :=
  (nodesLeft ops self.vecNodes run.vecData).isEmpty &&
    !(decide (run.centerPrints < self.centerPrints) || decide (run.kills < self.kills) ||
      decide (run.secrets < self.secrets) ||
      decide (ops.add run.ap run.hp < self.totalHP) || run.died) &&
    !self.missesKey run 17 && !self.missesKey run 18

/-- `RunConditions::Reset`. (optimizer.cpp:466-474) -/
def reset (ops : Arith R) (self : RunConditions R) : RunConditions R :=
  { self with
    vecNodes := []
    centerPrints := 0
    kills := 0
    secrets := 0
    initialized := false
    totalHP := ops.ofInt 1 }

end RunConditions

/-- The efficacy that `OptimizerRun::CalculateEfficacy` sets. (optimizer.cpp:476-544) -/
def OptimizerRun.calculateEfficacy {F R : Type} [LinearOrder R] (ops : Arith R)
    (self : OptimizerRun F R) (goal : OptimizerGoal) (conditions : RunConditions R)
    (targetPos : Vec R) : R :=
  if self.died then ops.lowest
  else if !conditions.fulfillsConditions ops self then ops.lowest
  else
    match goal, self.vecData.getLast? with
    | .time, _ =>
      if !self.finishedLevel then ops.ofInt 0 else ops.sub (ops.ofInt 1000) self.levelTime
    | .teleporter, _ => ops.sub (ops.ofInt 1000) self.teleportTime
    | _, none => ops.lowest
    | .undetermined, _ => ops.lowest
    | .position, some last => ops.neg (ops.distance last.pos targetPos)
    | .negX, some last => ops.neg last.pos.x
    | .negY, some last => ops.neg last.pos.y
    | .plusX, some last => last.pos.x
    | .plusZ, some last => last.pos.z
    | .negZ, some last => ops.neg last.pos.z
    | .kills, some _ => ops.ofInt self.kills
    | .plusY, some last => last.pos.y

/-- `Optimizer`.  The counters are natural numbers; `m_iCurrentAlgorithm` is `none` for `-1`. -/
structure Optimizer (F R A : Type) where
  algorithms : List A
  currentBest : OptimizerRun F R
  currentRun : OptimizerRun F R
  settings : OptimizerSettings R A
  rng : Draws
  compoundingProbs : List R
  currentAlgorithm : Option ℕ
  lastFrame : Int
  iteration : ℕ
  maxTime : R
  iterationsWithoutProgress : ℕ
  runConditions : RunConditions R

/-- The virtual functions of `OptimizerAlgorithm`.  `Mutate` may read the optimizer and draw
from its random engine; it returns its own state, the script and the outputs left, or `none`
if it does not return. -/
structure AlgorithmOps (F R A : Type) where
  mutate : A → Optimizer F R A → Option (A × TASScript F × Draws)
  reportResult : A → R → A
  reset : A → A
  wantsToContinue : A → Bool
  iterationsExpected : A → Int

namespace Optimizer

variable {F R A : Type}

/-- `Optimizer::ResetIteration`. (optimizer.cpp:11-14) -/
def resetIteration (ops : Arith R) (self : Optimizer F R A) : Optimizer F R A :=
  { self with currentRun := self.currentRun.resetIteration ops }

/-- `SelectIndex`, for a vector that is not empty. (optimizer.cpp:317-328) -/
def selectIndex [LinearOrder R] (value : R) (compoundingProbs : List R) : ℕ :=
  min (compoundingProbs.findIdx fun p => decide (value ≤ p)) (compoundingProbs.length - 1)

/-- `GetCompoundingProbs`: the shares added up, with the last one replaced by 1.
(optimizer.cpp:290-315) -/
def getCompoundingProbs (ops : Arith R) (alg : AlgorithmOps F R A) (algorithms : List A) : List R :=
  let totalIterations := algorithms.foldl
    (fun total a => ops.add total (ops.ofInt (alg.iterationsExpected a))) (ops.ofInt 0)
  let (output, _) := algorithms.foldl
    (fun (st : List R × R) a =>
      let compounding :=
        ops.add st.2 (ops.div (ops.ofInt (alg.iterationsExpected a)) totalIterations)
      (st.1 ++ [compounding], compounding))
    ([], ops.ofInt 0)
  output.set (output.length - 1) (ops.ofInt 1)

/-- `last_frame` of `Optimizer::Init`. (optimizer.cpp:249-269) -/
def initialLastFrame (playback : PlaybackInfo F) (settings : OptimizerSettings R A) : Int :=
  let lastFrame :=
    if 0 < settings.frames then settings.frames
    else if playback.currentFrame < playback.getLastFrame then
      playback.getLastFrame - playback.currentFrame + settings.endOffset
    else settings.endOffset
  if lastFrame ≤ 0 then 1 else lastFrame

/-- `Optimizer::Init`. (optimizer.cpp:238-288) -/
def init (ops : Arith R) (alg : AlgorithmOps F R A) (self : Optimizer F R A)
    (playback : PlaybackInfo F) (settings : OptimizerSettings R A) : Optimizer F R A :=
  let info := if playback.currentFrame = 0 then playback else playback.getTimeShiftedVersion (-1)
  let best := { self.currentBest with playbackInfo := info }.resetIteration ops
  let algorithms := settings.algorithms.map alg.reset
  { self with
    settings := settings
    algorithms := algorithms
    maxTime := ops.ofInt 0
    iteration := 0
    runConditions := self.runConditions.reset ops
    currentBest := best
    currentRun := best
    iterationsWithoutProgress := 0
    currentAlgorithm := none
    lastFrame := initialLastFrame playback settings
    compoundingProbs := getCompoundingProbs ops alg algorithms }

/-! ## Finishing an iteration -/

/-- The goal and the conditions are taken from the first run. (optimizer.cpp:32-40) -/
def prepareScoring [LinearOrder R] (ops : Arith R) (self : Optimizer F R A) : Optimizer F R A :=
  let self :=
    if self.settings.goal = .undetermined then
      { self with settings := { self.settings with goal := self.currentRun.autoGoal ops } }
    else self
  if !self.runConditions.initialized then
    { self with runConditions := self.runConditions.init ops self.currentRun self.settings }
  else self

/-- Scoring the run. (optimizer.cpp:32-42) -/
def scoreRun [LinearOrder R] (ops : Arith R) (self : Optimizer F R A) : Optimizer F R A :=
  let self := self.prepareScoring ops
  { self with
    currentRun :=
      { self.currentRun with
        efficacy := self.currentRun.calculateEfficacy ops self.settings.goal self.runConditions
          self.settings.targetPos } }

/-- Keeping the best run. (optimizer.cpp:44-53) -/
def keepBest [LinearOrder R] (self : Optimizer F R A) : Optimizer F R A :=
  if self.currentRun.isBetterThan self.currentBest then
    { self with currentBest := self.currentRun, iterationsWithoutProgress := 0 }
  else { self with iterationsWithoutProgress := self.iterationsWithoutProgress + 1 }

/-- The script of the current run replaced. -/
def withScript (self : Optimizer F R A) (script : TASScript F) : Optimizer F R A :=
  { self with
    currentRun :=
      { self.currentRun with
        playbackInfo := { self.currentRun.playbackInfo with currentScript := script } } }

/-- Reporting the result to the algorithm that made the run; one that does not want to
continue is reset, and the script goes back to the best one after a number of failures.
(optimizer.cpp:61-77) -/
def reportToAlgorithm (alg : AlgorithmOps F R A) (self : Optimizer F R A) :
    Option (Optimizer F R A) :=
  match self.currentAlgorithm with
  | none => some self
  | some i => do
    let a ← self.algorithms[i]?
    let a := alg.reportResult a self.currentRun.efficacy
    if alg.wantsToContinue a then some { self with algorithms := self.algorithms.set i a }
    else
      let self :=
        { self with algorithms := self.algorithms.set i (alg.reset a), currentAlgorithm := none }
      if self.settings.resetToBestIterations ≤ self.iterationsWithoutProgress then
        some (self.withScript self.currentBest.script)
      else some self

/-- `RandomizeIndex`. (optimizer.cpp:155-159) -/
def randomizeIndex [LinearOrder R] (ops : Arith R) (self : Optimizer F R A) : ℕ × Draws :=
  let (r, rng) := draw self.rng
  (selectIndex (ops.unit r) self.compoundingProbs, rng)

/-- Choosing an algorithm, if none is at work. (optimizer.cpp:82-85) -/
def chooseAlgorithm [LinearOrder R] (ops : Arith R) (self : Optimizer F R A) :
    Optimizer F R A × ℕ :=
  match self.currentAlgorithm with
  | some i => (self, i)
  | none =>
    let (i, rng) := self.randomizeIndex ops
    ({ self with currentAlgorithm := some i, rng := rng }, i)

/-- Letting an algorithm mutate the script. (optimizer.cpp:80-88) -/
def mutateRun [LinearOrder R] (ops : Arith R) (alg : AlgorithmOps F R A) (self : Optimizer F R A) :
    Option (Optimizer F R A) :=
  if self.algorithms.isEmpty then some self
  else do
    let (self, i) := self.chooseAlgorithm ops
    let a ← self.algorithms[i]?
    let (a, script, rng) ← alg.mutate a self
    some { self.withScript script with algorithms := self.algorithms.set i a, rng := rng }

/-- `_FinishIteration`. (optimizer.cpp:30-94) -/
def finishIteration [LinearOrder R] (ops : Arith R) (alg : AlgorithmOps F R A)
    (self : Optimizer F R A) : Option (Optimizer F R A × OptimizerState) := do
  let self := (self.scoreRun ops).keepBest
  if self.settings.giveUpAfterNoProgress ≤ self.iterationsWithoutProgress then
    some ({ self with iteration := self.iteration + 1 }, .stop)
  else
    let self ← self.reportToAlgorithm alg
    let self ← self.mutateRun ops alg
    some ({ self with iteration := self.iteration + 1 }, .newIteration)

/-- The run with the data of one more frame. (optimizer.cpp:103-122) -/
def recordFrame [LinearOrder R] (run : OptimizerRun F R) (data : ExtendedFrameData R) :
    OptimizerRun F R :=
  let run :=
    if !run.finishedLevel && data.intermission then
      { run with levelTime := data.time, finishedLevel := true }
    else run
  let run :=
    if data.teleported then { run with teleportTime := min run.teleportTime data.time } else run
  { run with
    died := run.died || data.died
    ap := data.ap
    hp := data.hp
    vecData := run.vecData ++ [data.frameData]
    playbackInfo := { run.playbackInfo with currentFrame := run.playbackInfo.currentFrame + 1 } }

/-- `OnRunnerFrame`. (optimizer.cpp:96-135) -/
def onRunnerFrame [LinearOrder R] (ops : Arith R) (alg : AlgorithmOps F R A)
    (self : Optimizer F R A) (data : ExtendedFrameData R) :
    Option (Optimizer F R A × OptimizerState) :=
  let self :=
    if self.iteration = 0 then { self with maxTime := max self.maxTime data.time } else self
  let self := { self with currentRun := recordFrame self.currentRun data }
  let frame := self.currentRun.playbackInfo.currentFrame
  if frame = self.lastFrame ∨ self.maxTime < data.time then self.finishIteration ops alg
  else if self.lastFrame < frame then some (self, .newIteration)
  else some (self, .continueIteration)

end Optimizer

/-!
## The optimizer run by the game

What optimizer_quake.cpp does with its static `opt` and `state` while the game executes the
scripts of an optimisation: it initialises the optimizer, reports center prints, reports every
frame with the counters of the run, and starts the next iteration.
-/

/-- `opt` and `state`. -/
structure GameOpt (F R A : Type) where
  opt : Optimizer F R A
  state : OptimizerState := .continueIteration

/-- What the game reports to the optimizer. -/
inductive GameOptEvent (R : Type) where
  /-- `SCR_CenterPrint_Hook` -/
  | centerPrint
  /-- `Game_Opt_Add_FrameData`, with a player on the server -/
  | frame (items kills secrets : ℕ) (data : ExtendedFrameData R)
  /-- `GameOpt_NewIteration` -/
  | newIteration

namespace GameOpt

variable {F R A : Type}

/-- `GameOpt_InitOptimizer`. (optimizer_quake.cpp:504-534) -/
def initOptimizer (ops : Arith R) (alg : AlgorithmOps F R A) (opt : Optimizer F R A)
    (playback : PlaybackInfo F) (settings : OptimizerSettings R A) : GameOpt F R A :=
  { opt := opt.init ops alg playback settings }

/-- `SCR_CenterPrint_Hook`. (optimizer_quake.cpp:653-662) -/
def centerPrintHook (self : GameOpt F R A) : GameOpt F R A :=
  let run := self.opt.currentRun
  { self with
    opt := { self.opt with currentRun := { run with centerPrints := run.centerPrints + 1 } } }

/-- The counters of `m_currentRun` that the game sets before it reports a frame.
(optimizer_quake.cpp:624-628) -/
def setCounters (opt : Optimizer F R A) (items kills secrets : ℕ) : Optimizer F R A :=
  { opt with
    currentRun := { opt.currentRun with items := items, kills := kills, secrets := secrets } }

/-- `Game_Opt_Add_FrameData`. (optimizer_quake.cpp:606-637) -/
def addFrameData [LinearOrder R] (ops : Arith R) (alg : AlgorithmOps F R A) (self : GameOpt F R A)
    (items kills secrets : ℕ) (data : ExtendedFrameData R) : Option (GameOpt F R A) :=
  ((setCounters self.opt items kills secrets).onRunnerFrame ops alg data).map
    fun (opt, state) => { opt := opt, state := state }

/-- `GameOpt_NewIteration`. (optimizer_quake.cpp:578-604) -/
def newIteration (ops : Arith R) (self : GameOpt F R A) : GameOpt F R A :=
  { opt := self.opt.resetIteration ops, state := .continueIteration }

/-- One report of the game. -/
def step [LinearOrder R] (ops : Arith R) (alg : AlgorithmOps F R A) (self : GameOpt F R A) :
    GameOptEvent R → Option (GameOpt F R A)
  | .centerPrint => some self.centerPrintHook
  | .frame items kills secrets data => self.addFrameData ops alg items kills secrets data
  | .newIteration => some (self.newIteration ops)

end GameOpt

end TASQuake
