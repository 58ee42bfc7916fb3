import TASQuake.Lib.FirstBest
import TASQuake.Lib.Run
import TASQuake.Model.Optimizer
import Mathlib.Data.Int.Order.Basic

/-!
# The optimizer keeps its best run

`Runner` puts beside the optimizer the script of the iteration under way, the frames reported and
the iterations finished.  `m_currentBest` is the first best one of these, and the optimizer stops
exactly when the last `m_uGiveUpAfterNoProgress` of them have made no progress.
-/

namespace TASQuake.Analysis.BestRun

open Lib Optimizer

variable {F R A : Type}

/-- A finished iteration: the script executed, the frames reported and the efficacy. -/
structure Iteration (F R : Type) where
  script : TASScript F
  frames : List (FrameData R)
  efficacy : R

/-- The optimizer and what the game running it has seen. -/
structure Runner (F R A : Type) where
  opt : Optimizer F R A
  /-- the script executed in the iteration under way -/
  script : TASScript F
  /-- the frames reported in it -/
  frames : List (FrameData R) := []
  finished : List (Iteration F R) := []

namespace Runner

/-- The game starts to execute the script of `m_currentRun`. -/
def start (opt : Optimizer F R A) : Runner F R A := { opt := opt, script := opt.currentRun.script }

variable [LinearOrder R]

/-- One frame: the game reports it with `OnRunnerFrame`, and calls `ResetIteration` when the
answer is `NewIteration`.  `m_uIteration` counts the iterations finished. -/
def next (ops : Arith R) (alg : AlgorithmOps F R A) (self : Runner F R A)
    (data : ExtendedFrameData R) : Option (Runner F R A × OptimizerState) := do
  let (opt, state) ← self.opt.onRunnerFrame ops alg data
  let frames := self.frames ++ [data.frameData]
  let finished :=
    if opt.iteration = self.opt.iteration then self.finished
    else
      self.finished ++
        [{ script := self.script, frames := frames, efficacy := opt.currentRun.efficacy }]
  match state with
  | .newIteration =>
    let opt := opt.resetIteration ops
    some ({ opt := opt, script := opt.currentRun.script, finished := finished }, state)
  | _ => some ({ opt := opt, script := self.script, frames := frames, finished := finished }, state)

/-- The same, without the answer. -/
def step (ops : Arith R) (alg : AlgorithmOps F R A) (self : Runner F R A)
    (data : ExtendedFrameData R) : Option (Runner F R A) :=
  (self.next ops alg data).map Prod.fst

end Runner

/-! ## What the parts of an iteration do -/

/-- Scores and counters are left alone. -/
structure KeepsProgress (s s' : Optimizer F R A) : Prop where
  currentBest : s'.currentBest = s.currentBest
  settings : s'.settings = s.settings
  iterationsWithoutProgress : s'.iterationsWithoutProgress = s.iterationsWithoutProgress
  iteration : s'.iteration = s.iteration
  efficacy : s'.currentRun.efficacy = s.currentRun.efficacy

variable {s : Optimizer F R A}

theorem KeepsProgress.trans {t u : Optimizer F R A} (h : KeepsProgress s t) (h' : KeepsProgress t u) :
    KeepsProgress s u :=
  ⟨h'.currentBest.trans h.currentBest, h'.settings.trans h.settings,
    h'.iterationsWithoutProgress.trans h.iterationsWithoutProgress,
    h'.iteration.trans h.iteration, h'.efficacy.trans h.efficacy⟩

variable {alg : AlgorithmOps F R A} {s' : Optimizer F R A}

theorem keepsProgress_reportToAlgorithm (h : s.reportToAlgorithm alg = some s') :
    KeepsProgress s s' := by
  unfold reportToAlgorithm at h
  split at h
  · cases h
    exact ⟨rfl, rfl, rfl, rfl, rfl⟩
  · simp only [bind_eq_some] at h
    obtain ⟨a, -, h⟩ := h
    split at h
    · cases h
      exact ⟨rfl, rfl, rfl, rfl, rfl⟩
    · split at h
      · cases h
        exact ⟨rfl, rfl, rfl, rfl, rfl⟩
      · cases h
        exact ⟨rfl, rfl, rfl, rfl, rfl⟩

variable [LinearOrder R]

theorem keepsProgress_chooseAlgorithm (ops : Arith R) (s : Optimizer F R A) :
    KeepsProgress s (s.chooseAlgorithm ops).1 := by
  unfold chooseAlgorithm
  split <;> exact ⟨rfl, rfl, rfl, rfl, rfl⟩

variable {ops : Arith R}

theorem keepsProgress_mutateRun (h : s.mutateRun ops alg = some s') : KeepsProgress s s' := by
  unfold mutateRun at h
  split at h
  · cases h
    exact ⟨rfl, rfl, rfl, rfl, rfl⟩
  · simp only [bind_eq_some, Prod.exists, Option.some.injEq] at h
    obtain ⟨a, -, a', script, rng, -, rfl⟩ := h
    exact (keepsProgress_chooseAlgorithm ops s).trans ⟨rfl, rfl, rfl, rfl, rfl⟩

theorem scoreRun_spec (ops : Arith R) (s : Optimizer F R A) :
    (s.scoreRun ops).currentBest = s.currentBest ∧
      (s.scoreRun ops).currentRun.script = s.currentRun.script ∧
      (s.scoreRun ops).currentRun.vecData = s.currentRun.vecData ∧
      (s.scoreRun ops).iterationsWithoutProgress = s.iterationsWithoutProgress ∧
      (s.scoreRun ops).iteration = s.iteration ∧
      (s.scoreRun ops).settings.giveUpAfterNoProgress = s.settings.giveUpAfterNoProgress := by
  unfold scoreRun prepareScoring
  simp only
  split <;> split <;> exact ⟨rfl, rfl, rfl, rfl, rfl, rfl⟩

variable {state : OptimizerState}

theorem finishIteration_spec (h : s.finishIteration ops alg = some (s', state)) :
    s'.currentBest = ((s.scoreRun ops).keepBest).currentBest ∧
      s'.iterationsWithoutProgress = ((s.scoreRun ops).keepBest).iterationsWithoutProgress ∧
      s'.currentRun.efficacy = (s.scoreRun ops).currentRun.efficacy ∧
      s'.iteration = s.iteration + 1 ∧
      s'.settings.giveUpAfterNoProgress = s.settings.giveUpAfterNoProgress ∧
      (state = .stop ↔
        s'.settings.giveUpAfterNoProgress ≤ s'.iterationsWithoutProgress) ∧
      (state = .stop → s'.currentRun.script = s.currentRun.script ∧
        s'.currentRun.vecData = s.currentRun.vecData) ∧
      state ≠ .continueIteration := by
  obtain ⟨-, hscript, hdata, -, hiter, hgive⟩ := scoreRun_spec ops s
  have hkeep : (s.scoreRun ops).keepBest.currentRun = (s.scoreRun ops).currentRun ∧
      (s.scoreRun ops).keepBest.settings = (s.scoreRun ops).settings ∧
      (s.scoreRun ops).keepBest.iteration = (s.scoreRun ops).iteration := by
    unfold keepBest
    split <;> exact ⟨rfl, rfl, rfl⟩
  obtain ⟨hrun, hset, hit⟩ := hkeep
  unfold finishIteration at h
  simp only at h
  split at h
  · next hstop =>
    cases h
    refine ⟨rfl, rfl, congrArg OptimizerRun.efficacy hrun, ?_, ?_, iff_of_true rfl hstop, ?_, nofun⟩
    · show (s.scoreRun ops).keepBest.iteration + 1 = _
      rw [hit, hiter]
    · show (s.scoreRun ops).keepBest.settings.giveUpAfterNoProgress = _
      rw [hset, hgive]
    · intro _
      rw [hrun]
      exact ⟨hscript, hdata⟩
  · next hgo =>
    simp only [bind_eq_some, Option.some.injEq, Prod.mk.injEq] at h
    obtain ⟨t, ht, u, hu, rfl, rfl⟩ := h
    have hk := (keepsProgress_reportToAlgorithm ht).trans (keepsProgress_mutateRun hu)
    refine ⟨hk.currentBest, hk.iterationsWithoutProgress, ?_, ?_, ?_, iff_of_false nofun ?_,
      nofun, nofun⟩
    · show u.currentRun.efficacy = _
      rw [hk.efficacy, hrun]
    · show u.iteration + 1 = _
      rw [hk.iteration, hit, hiter]
    · show u.settings.giveUpAfterNoProgress = _
      rw [hk.settings, hset, hgive]
    · show ¬ u.settings.giveUpAfterNoProgress ≤ u.iterationsWithoutProgress
      rw [hk.settings, hk.iterationsWithoutProgress]
      exact hgo

theorem recordFrame_spec (run : OptimizerRun F R) (data : ExtendedFrameData R) :
    (recordFrame run data).script = run.script ∧
      (recordFrame run data).vecData = run.vecData ++ [data.frameData] := by
  unfold recordFrame
  split <;> split <;> exact ⟨rfl, rfl⟩

variable {data : ExtendedFrameData R}

theorem onRunnerFrame_cases (h : s.onRunnerFrame ops alg data = some (s', state)) :
    ∃ t : Optimizer F R A, t.currentRun = recordFrame s.currentRun data ∧
      t.currentBest = s.currentBest ∧ t.settings = s.settings ∧ t.iteration = s.iteration ∧
      t.iterationsWithoutProgress = s.iterationsWithoutProgress ∧
      (t.finishIteration ops alg = some (s', state) ∨ (s' = t ∧ state ≠ .stop)) := by
  unfold onRunnerFrame at h
  simp only at h
  generalize ht : (if s.iteration = 0 then { s with maxTime := max s.maxTime data.time } else s) = t
    at h
  have hkeep : t.currentRun = s.currentRun ∧ t.currentBest = s.currentBest ∧
      t.settings = s.settings ∧ t.iteration = s.iteration ∧
      t.iterationsWithoutProgress = s.iterationsWithoutProgress := by
    rw [← ht]
    split <;> exact ⟨rfl, rfl, rfl, rfl, rfl⟩
  obtain ⟨hrun, hbest, hset, hiter, hwithout⟩ := hkeep
  refine ⟨{ t with currentRun := recordFrame t.currentRun data }, by rw [hrun], hbest,
    hset, hiter, hwithout, ?_⟩
  split at h
  · exact .inl h
  · split at h
    · cases h
      exact .inr ⟨rfl, nofun⟩
    · cases h
      exact .inr ⟨rfl, nofun⟩

/-! ## The invariant -/

/-- The run kept is the iteration `it`. -/
structure Keeps (best : OptimizerRun F R) (it : Iteration F R) : Prop where
  efficacy : best.efficacy = it.efficacy
  script : best.script = it.script
  frames : best.vecData = it.frames
  nonempty : best.vecData ≠ []

/-- A run, as a finished iteration. -/
def iterationOf (run : OptimizerRun F R) : Iteration F R := ⟨run.script, run.vecData, run.efficacy⟩

/-- What the optimizer knows of the finished iterations. -/
def BestKept (opt : Optimizer F R A) (finished : List (Iteration F R)) : Prop :=
  ∃ best, FirstBest Iteration.efficacy finished best opt.iterationsWithoutProgress ∧
    Keeps opt.currentBest best

/-- Nothing has been finished yet. -/
def Fresh (opt : Optimizer F R A) (finished : List (Iteration F R)) : Prop :=
  finished = [] ∧ opt.currentBest.vecData = []

structure Inv (giveUp : ℕ) (r : Runner F R A) : Prop where
  script : r.opt.currentRun.script = r.script
  frames : r.opt.currentRun.vecData = r.frames
  giveUp : r.opt.settings.giveUpAfterNoProgress = giveUp
  best : Fresh r.opt r.finished ∨ BestKept r.opt r.finished

theorem bestKept_keepBest {finished : List (Iteration F R)} (hdata : s.currentRun.vecData ≠ [])
    (h : Fresh s finished ∨ BestKept s finished) :
    BestKept s.keepBest (finished ++ [iterationOf s.currentRun]) := by
  have hempty : s.currentRun.vecData.isEmpty = false := by simpa using hdata
  have hnew : Keeps s.currentRun (iterationOf s.currentRun) := ⟨rfl, rfl, rfl, hdata⟩
  unfold keepBest OptimizerRun.isBetterThan
  rw [hempty]
  rcases h with ⟨rfl, hbest⟩ | ⟨best, hfirst, hkeeps⟩
  · -- the first iteration is always kept
    rw [hbest]
    exact ⟨_, firstBest_singleton _, hnew⟩
  · have hne : s.currentBest.vecData.isEmpty = false := by simpa using hkeeps.nonempty
    rw [hne]
    simp only [Bool.false_eq_true, if_false, decide_eq_true_eq]
    split
    · next hlt =>
      rw [hkeeps.efficacy] at hlt
      exact ⟨_, hfirst.concat_of_lt hlt, hnew⟩
    · next hle =>
      rw [hkeeps.efficacy] at hle
      exact ⟨best, hfirst.concat_of_le (not_lt.mp hle), hkeeps⟩

theorem inv_start (ops : Arith R) (alg : AlgorithmOps F R A) (opt : Optimizer F R A)
    (playback : PlaybackInfo F) (settings : OptimizerSettings R A) :
    Inv settings.giveUpAfterNoProgress (Runner.start (opt.init ops alg playback settings)) :=
  ⟨rfl, rfl, rfl, .inl ⟨rfl, rfl⟩⟩

variable {r : Runner F R A} {giveUp : ℕ}

theorem finish_bestKept {t opt : Optimizer F R A} (hinv : Inv giveUp r)
    (hrun : t.currentRun = recordFrame r.opt.currentRun data)
    (hbest : t.currentBest = r.opt.currentBest)
    (hwithout : t.iterationsWithoutProgress = r.opt.iterationsWithoutProgress)
    (h : t.finishIteration ops alg = some (opt, state)) :
    BestKept opt
      (r.finished ++ [⟨r.script, r.frames ++ [data.frameData], opt.currentRun.efficacy⟩]) := by
  obtain ⟨hbest', hwithout', heff, -⟩ := finishIteration_spec h
  obtain ⟨hsbest, hscript, hdata, hswithout, -⟩ := scoreRun_spec ops t
  obtain ⟨hrscript, hrdata⟩ := recordFrame_spec r.opt.currentRun data
  rw [hrun, hrscript, hinv.script] at hscript
  rw [hrun, hrdata, hinv.frames] at hdata
  have hbefore : Fresh (t.scoreRun ops) r.finished ∨ BestKept (t.scoreRun ops) r.finished := by
    unfold Fresh BestKept
    rw [hsbest, hbest, hswithout, hwithout]
    exact hinv.best
  have hkept := bestKept_keepBest (by rw [hdata]; simp) hbefore
  unfold iterationOf at hkept
  rw [hscript, hdata, ← heff] at hkept
  unfold BestKept
  rw [hbest', hwithout']
  exact hkept

theorem Inv.next {r' : Runner F R A} (hinv : Inv giveUp r)
    (h : r.next ops alg data = some (r', state)) :
    Inv giveUp r' ∧ (r'.finished ≠ r.finished → BestKept r'.opt r'.finished ∧
      (state = .stop ↔ giveUp ≤ r'.opt.iterationsWithoutProgress)) := by
  unfold Runner.next at h
  simp only [bind_eq_some, Prod.exists] at h
  obtain ⟨opt, st, hframe, h⟩ := h
  obtain ⟨t, hrun, hbest, hset, hiter, hwithout, hcases⟩ := onRunnerFrame_cases hframe
  obtain ⟨hrscript, hrdata⟩ := recordFrame_spec r.opt.currentRun data
  rcases hcases with hfin | ⟨rfl, hst⟩
  · have hkept := finish_bestKept hinv hrun hbest hwithout hfin
    obtain ⟨-, -, -, hit, hgive, hstop, hsame, hcont⟩ := finishIteration_spec hfin
    have hne : opt.iteration ≠ r.opt.iteration := by omega
    rw [if_neg hne] at h
    have hgive' : opt.settings.giveUpAfterNoProgress = giveUp := by
      rw [hgive, hset]
      exact hinv.giveUp
    rw [hgive'] at hstop
    cases st with
    | continueIteration => exact absurd rfl hcont
    | newIteration =>
      cases h
      exact ⟨⟨rfl, rfl, hgive', .inr hkept⟩, fun _ => ⟨hkept, hstop⟩⟩
    | stop =>
      cases h
      obtain ⟨hscript, hdata⟩ := hsame rfl
      refine ⟨⟨?_, ?_, hgive', .inr hkept⟩, fun _ => ⟨hkept, hstop⟩⟩
      · exact (hscript.trans (hrun ▸ hrscript)).trans hinv.script
      · show opt.currentRun.vecData = _
        rw [hdata, hrun, hrdata, hinv.frames]
  · -- nothing is finished
    rw [if_pos hiter] at h
    have hbest' : Fresh opt r.finished ∨ BestKept opt r.finished := by
      unfold Fresh BestKept
      rw [hbest, hwithout]
      exact hinv.best
    have hgive' : opt.settings.giveUpAfterNoProgress = giveUp := by
      rw [hset]
      exact hinv.giveUp
    cases st with
    | continueIteration =>
      cases h
      refine ⟨⟨?_, ?_, hgive', hbest'⟩, fun hne => absurd rfl hne⟩
      · show opt.currentRun.script = r.script
        rw [hrun, hrscript, hinv.script]
      · show opt.currentRun.vecData = _
        rw [hrun, hrdata, hinv.frames]
    | newIteration =>
      cases h
      exact ⟨⟨rfl, rfl, hgive', hbest'⟩, fun hne => absurd rfl hne⟩
    | stop => exact absurd rfl hst

/-! ## Runs -/

theorem inv_of_run {r' : Runner F R A} {datas : List (ExtendedFrameData R)} (hinv : Inv giveUp r)
    (h : run (Runner.step ops alg) r datas = some r') : Inv giveUp r' := by
  have hguarded : Guarded (Runner.step ops alg) (fun _ _ => True) r datas :=
    guarded_of_forall fun _ _ => trivial
  refine invariant_run (fun s data t hs _ ht => ?_) hinv hguarded h
  obtain ⟨⟨t', state⟩, hnext, rfl⟩ := Option.map_eq_some_iff.mp ht
  exact (hs.next hnext).1

/-- Whenever a frame finishes an iteration, the run kept is the earliest iteration with the highest
efficacy, with its script and its frames, and the answer is `Stop` exactly if the last
`m_uGiveUpAfterNoProgress` iterations have all failed to exceed the best one before them. -/
theorem optimizer_keeps_best_and_stops (ops : Arith R) (alg : AlgorithmOps F R A)
    (opt : Optimizer F R A) (playback : PlaybackInfo F) (settings : OptimizerSettings R A)
    (datas : List (ExtendedFrameData R)) (r : Runner F R A)
    (hrun : run (Runner.step ops alg) (Runner.start (opt.init ops alg playback settings)) datas =
      some r)
    (data : ExtendedFrameData R) (r' : Runner F R A) (state : OptimizerState)
    (hnext : r.next ops alg data = some (r', state)) (hfin : r'.finished ≠ r.finished) :
    (∃ best k, FirstBest Iteration.efficacy r'.finished best k ∧
      r'.opt.currentBest.efficacy = best.efficacy ∧ r'.opt.currentBest.script = best.script ∧
      r'.opt.currentBest.vecData = best.frames) ∧
    (state = .stop ↔
      NoProgress Iteration.efficacy r'.finished settings.giveUpAfterNoProgress) := by
  have hinv := inv_of_run (inv_start ops alg opt playback settings) hrun
  obtain ⟨⟨best, hfirst, hkeeps⟩, hstop⟩ := (hinv.next hnext).2 hfin
  refine ⟨⟨best, _, hfirst, hkeeps.efficacy, hkeeps.script, hkeeps.frames⟩, ?_⟩
  rw [hstop, hfirst.noProgress_iff]

/-! ## An optimizer that gives up -/

/-- Integers for doubles. -/
def exampleArith : Arith Int :=
  { ofInt := id
    add := fun a b => a + b
    sub := fun a b => a - b
    neg := fun a => -a
    div := fun a b => a / b
    abs := fun a => a.natAbs
    lowest := -1000000
    distance := fun v w => (v.x - w.x).natAbs + (v.y - w.y).natAbs + (v.z - w.z).natAbs
    unit := fun n => n }

/-- No algorithm is used. -/
def exampleAlgorithms : AlgorithmOps Int Int Unit :=
  { mutate := fun a opt => some (a, opt.currentRun.script, opt.rng)
    reportResult := fun a _ => a
    reset := fun a => a
    wantsToContinue := fun _ => false
    iterationsExpected := fun _ => 1 }

/-- One frame an iteration, and one failure is enough to give up. -/
def exampleSettings : OptimizerSettings Int Unit :=
  { goal := .plusX
    targetPos := ⟨0, 0, 0⟩
    giveUpAfterNoProgress := 1
    frames := 1
    algorithms := []
    useNodes := false }

def exampleOptimizer : Optimizer Int Int Unit :=
  let run : OptimizerRun Int Int :=
    { efficacy := -1000000, playbackInfo := {}, levelTime := 0, teleportTime := 1000, hp := 100
      ap := 0 }
  { algorithms := [], currentBest := run, currentRun := run, settings := exampleSettings, rng := []
    compoundingProbs := [], currentAlgorithm := none, lastFrame := 1, iteration := 0, maxTime := 0
    iterationsWithoutProgress := 0, runConditions := { totalHP := 1 } }

/-- A frame on which the player stands at `x = 5`. -/
def exampleFrame : ExtendedFrameData Int :=
  { frameData := ⟨⟨5, 0, 0⟩, 0⟩, hp := 100, ap := 0, time := 0, died := false
    intermission := false, teleported := false }

def exampleStart : Runner Int Int Unit :=
  Runner.start (exampleOptimizer.init exampleArith exampleAlgorithms {} exampleSettings)

/-- The second of two equal iterations makes the optimizer stop. -/
theorem optimizer_keeps_best_and_stops_example :
    ∃ r r', run (Runner.step exampleArith exampleAlgorithms) exampleStart [exampleFrame] = some r ∧
      r.next exampleArith exampleAlgorithms exampleFrame = some (r', .stop) ∧
      r'.finished.length = 2 ∧ r'.opt.currentBest.efficacy = 5 ∧
      NoProgress Iteration.efficacy r'.finished 1 := by
  obtain ⟨r, hr⟩ : ∃ r, run (Runner.step exampleArith exampleAlgorithms) exampleStart
      [exampleFrame] = some r := ⟨_, rfl⟩
  obtain ⟨r', hr', hlen, heff⟩ : ∃ r', r.next exampleArith exampleAlgorithms exampleFrame =
      some (r', .stop) ∧ r'.finished.length = r.finished.length + 1 ∧
        r'.opt.currentBest.efficacy = 5 := by
    cases hr
    exact ⟨_, rfl, rfl, rfl⟩
  have hone : r.finished.length = 1 := by
    cases hr
    rfl
  have hfin : r'.finished ≠ r.finished := by
    intro heq
    rw [heq] at hlen
    omega
  have h := optimizer_keeps_best_and_stops exampleArith exampleAlgorithms exampleOptimizer {}
    exampleSettings [exampleFrame] r hr exampleFrame r' .stop hr' hfin
  exact ⟨r, r', hr, hr', by omega, heff, h.2.mp rfl⟩

end TASQuake.Analysis.BestRun
