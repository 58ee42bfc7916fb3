import TASQuake.Analysis.BestRun

/-!
# What the optimizer calls

`LifeCycle` is the contract between the optimizer and its algorithms, which are idle or work on the
script.  The optimizer keeps its side: `Mutate` is only called on an algorithm that is ready for it
(`upToMutate_spec`), in every run of frames (`run_driven`).
-/

namespace TASQuake.Analysis.OptimizerCalls

open Lib BestRun Optimizer List

variable {F R A : Type}

/-! ## Up to the call of `Mutate` -/

/-- `OnRunnerFrame` has its answer, or it is about to call `Mutate`. -/
inductive Pending (F R A : Type) where
  | answered (opt : Optimizer F R A) (state : OptimizerState)
  | calls (opt : Optimizer F R A) (i : ℕ)

section Driver

variable [LinearOrder R] (ops : Arith R) (alg : AlgorithmOps F R A)

/-- `_FinishIteration` up to the call of `Mutate`. -/
def finishUpToMutate (self : Optimizer F R A) : Option (Pending F R A) := do
  let self := (self.scoreRun ops).keepBest
  if self.settings.giveUpAfterNoProgress ≤ self.iterationsWithoutProgress then
    some (.answered { self with iteration := self.iteration + 1 } .stop)
  else
    let self ← self.reportToAlgorithm alg
    if self.algorithms.isEmpty then
      some (.answered { self with iteration := self.iteration + 1 } .newIteration)
    else
      let (self, i) := self.chooseAlgorithm ops
      some (.calls self i)

/-- The optimizer with a frame recorded. -/
def withFrame (self : Optimizer F R A) (data : ExtendedFrameData R) : Optimizer F R A :=
  let self :=
    if self.iteration = 0 then { self with maxTime := max self.maxTime data.time } else self
  { self with currentRun := recordFrame self.currentRun data }

/-- `OnRunnerFrame` up to the call of `Mutate`. -/
def upToMutate (self : Optimizer F R A) (data : ExtendedFrameData R) : Option (Pending F R A) :=
  let self := withFrame self data
  let frame := self.currentRun.playbackInfo.currentFrame
  if frame = self.lastFrame ∨ self.maxTime < data.time then finishUpToMutate ops alg self
  else if self.lastFrame < frame then some (.answered self .newIteration)
  else some (.answered self .continueIteration)

/-- The optimizer after `Mutate` has returned. -/
def afterMutate (self : Optimizer F R A) (i : ℕ) (a : A) (script : TASScript F) (rng : Draws) :
    Optimizer F R A :=
  { self.withScript script with
    algorithms := self.algorithms.set i a
    rng := rng
    iteration := self.iteration + 1 }

/-- The rest of `OnRunnerFrame`. -/
def complete : Pending F R A → Option (Optimizer F R A × OptimizerState)
  | .answered opt state => some (opt, state)
  | .calls opt i => do
    let a ← opt.algorithms[i]?
    let (a, script, rng) ← alg.mutate a opt
    some (afterMutate opt i a script rng, .newIteration)

theorem finishIteration_eq (s : Optimizer F R A) :
    s.finishIteration ops alg = (finishUpToMutate ops alg s).bind (complete alg) := by
  unfold finishIteration finishUpToMutate
  dsimp only
  split
  · rfl
  · cases hreport : ((s.scoreRun ops).keepBest).reportToAlgorithm alg with
    | none => rfl
    | some t =>
      simp only [some_bind]
      unfold mutateRun
      split
      · rfl
      · simp only [complete, Option.bind_eq_bind, Option.bind_some, Option.bind_assoc]
        rfl

/-- **`OnRunnerFrame`, cut at the call of `Mutate`.** -/
theorem onRunnerFrame_eq (s : Optimizer F R A) (data : ExtendedFrameData R) :
    s.onRunnerFrame ops alg data = (upToMutate ops alg s data).bind (complete alg) := by
  unfold onRunnerFrame upToMutate withFrame
  dsimp only
  generalize (if s.iteration = 0 then { s with maxTime := max s.maxTime data.time } else s) = t
  split
  · exact finishIteration_eq ops alg _
  · split
    · rfl
    · rfl

end Driver

/-! ## The contract -/

/-- What an algorithm holds between the calls of the optimizer: `idle` when another one or none is
current, `ready n` before it mutates a script of `n` blocks and `working n` afterwards.  The scripts
meet a condition `P` that mutations keep. -/
structure LifeCycle (alg : AlgorithmOps F R A) (idle : A → Prop) (ready working : ℕ → A → Prop)
    (P : TASScript F → Prop) : Prop where
  ready_of_idle : ∀ n a, idle a → ready n a
  ready_of_continue : ∀ n a efficacy, working n a →
    alg.wantsToContinue (alg.reportResult a efficacy) = true → ready n (alg.reportResult a efficacy)
  idle_of_reset : ∀ n a efficacy, working n a →
    alg.wantsToContinue (alg.reportResult a efficacy) = false →
    idle (alg.reset (alg.reportResult a efficacy))
  mutate : ∀ a (opt : Optimizer F R A), ready opt.currentRun.script.blocks.length a →
    P opt.currentRun.script → ∃ a' t rng, alg.mutate a opt = some (a', t, rng) ∧
      working t.blocks.length a' ∧ P t

/-- The optimizer between two calls: the current algorithm holds what it has to in that place, all
others are idle. -/
structure Driven (idle : A → Prop) (held : ℕ → A → Prop) (P : TASScript F → Prop)
    (opt : Optimizer F R A) : Prop where
  nonempty : opt.algorithms ≠ []
  probs : opt.compoundingProbs.length = opt.algorithms.length
  lastFrame : 1 ≤ opt.lastFrame
  current : ∀ i, opt.currentAlgorithm = some i →
    ∃ a, opt.algorithms[i]? = some a ∧ held opt.currentRun.script.blocks.length a
  others : ∀ j a, opt.algorithms[j]? = some a → opt.currentAlgorithm ≠ some j → idle a
  script : P opt.currentRun.script
  best : P opt.currentBest.script

/-- Two states that differ in the run's data and the scores only; the best run may have become
the current one. -/
structure SameCalls (s t : Optimizer F R A) : Prop where
  algorithms : t.algorithms = s.algorithms
  probs : t.compoundingProbs = s.compoundingProbs
  lastFrame : t.lastFrame = s.lastFrame
  current : t.currentAlgorithm = s.currentAlgorithm
  script : t.currentRun.script = s.currentRun.script
  best : t.currentBest.script = s.currentBest.script ∨ t.currentBest.script = s.currentRun.script

theorem SameCalls.trans {s t u : Optimizer F R A} (h : SameCalls s t) (h' : SameCalls t u) :
    SameCalls s u := by
  refine ⟨h'.algorithms.trans h.algorithms, h'.probs.trans h.probs,
    h'.lastFrame.trans h.lastFrame, h'.current.trans h.current, h'.script.trans h.script, ?_⟩
  rcases h'.best with hb | hb
  · rw [hb]
    exact h.best
  · exact .inr (hb.trans h.script)

section Invariant

variable {idle : A → Prop} {ready working held held' : ℕ → A → Prop} {P : TASScript F → Prop}

theorem SameCalls.driven {s t : Optimizer F R A} (h : SameCalls s t) (hs : Driven idle held P s) :
    Driven idle held P t := by
  refine ⟨h.algorithms ▸ hs.nonempty, ?_, h.lastFrame ▸ hs.lastFrame, ?_, ?_,
    h.script ▸ hs.script, ?_⟩
  · rw [h.probs, h.algorithms]
    exact hs.probs
  · rw [h.current, h.algorithms, h.script]
    exact hs.current
  · rw [h.current, h.algorithms]
    exact hs.others
  · rcases h.best with hb | hb
    · exact hb ▸ hs.best
    · exact hb ▸ hs.script

/-- A state in which the current algorithm has been replaced. -/
structure Replaces (s t : Optimizer F R A) (i : ℕ) (a : A) : Prop where
  current : s.currentAlgorithm = some i
  algorithms : t.algorithms = s.algorithms.set i a
  probs : t.compoundingProbs = s.compoundingProbs
  lastFrame : t.lastFrame = s.lastFrame

section Replaces

variable {s t : Optimizer F R A} {i : ℕ} {a : A}

section

variable (h : Replaces s t i a)
include h

section

variable (hs : Driven idle held P s)
include hs

theorem Replaces.nonempty :
    t.algorithms ≠ [] := by
  intro hnil
  apply hs.nonempty
  rw [h.algorithms] at hnil
  rw [← length_eq_zero_iff, ← length_set, hnil]
  rfl

theorem Replaces.length_probs :
    t.compoundingProbs.length = t.algorithms.length := by
  rw [h.algorithms, h.probs, length_set]
  exact hs.probs

theorem Replaces.getElem? :
    t.algorithms[i]? = some a := by
  obtain ⟨b, hb, -⟩ := hs.current i h.current
  obtain ⟨hlt, -⟩ := List.getElem?_eq_some_iff.mp hb
  rw [h.algorithms]
  exact getElem?_set_self hlt

theorem Replaces.others {j : ℕ} {b : A}
    (hb : t.algorithms[j]? = some b) (hji : j ≠ i) : idle b := by
  rw [h.algorithms, getElem?_set_ne (Ne.symm hji)] at hb
  refine hs.others j b hb fun hcur => hji ?_
  rw [h.current] at hcur
  exact (Option.some.inj hcur).symm

theorem Replaces.driven
    (hcur : t.currentAlgorithm = some i) (ha : held' t.currentRun.script.blocks.length a)
    (hscript : P t.currentRun.script) (hbest : P t.currentBest.script) :
    Driven idle held' P t := by
  refine ⟨h.nonempty hs, h.length_probs hs, h.lastFrame ▸ hs.lastFrame, fun j hj => ?_,
    fun j b hb hj => ?_, hscript, hbest⟩
  · rw [hcur] at hj
    cases hj
    exact ⟨a, h.getElem? hs, ha⟩
  · refine h.others hs hb ?_
    rintro rfl
    exact hj hcur

theorem Replaces.driven_none
    (hcur : t.currentAlgorithm = none) (ha : idle a) (hscript : P t.currentRun.script)
    (hbest : P t.currentBest.script) : Driven idle held' P t := by
  refine ⟨h.nonempty hs, h.length_probs hs, h.lastFrame ▸ hs.lastFrame, fun j hj => ?_,
    fun j b hb _ => ?_, hscript, hbest⟩
  · rw [hcur] at hj
    cases hj
  · by_cases hji : j = i
    · subst hji
      rw [h.getElem? hs] at hb
      cases hb
      exact ha
    · exact h.others hs hb hji

end

end

end Replaces

variable {alg : AlgorithmOps F R A}

theorem length_getCompoundingProbs (ops : Arith R) (alg : AlgorithmOps F R A)
    (algorithms : List A) :
    (getCompoundingProbs ops alg algorithms).length = algorithms.length := by
  unfold getCompoundingProbs
  rw [length_set]
  generalize algorithms.foldl
    (fun total a => ops.add total (ops.ofInt (alg.iterationsExpected a))) (ops.ofInt 0) = total
  suffices h : ∀ (st : List R × R), (algorithms.foldl
      (fun (st : List R × R) a =>
        (st.1 ++ [ops.add st.2 (ops.div (ops.ofInt (alg.iterationsExpected a)) total)],
          ops.add st.2 (ops.div (ops.ofInt (alg.iterationsExpected a)) total))) st).1.length =
        st.1.length + algorithms.length by
    simpa using h ([], ops.ofInt 0)
  intro st
  induction algorithms generalizing st with
  | nil => rfl
  | cons a algorithms ih =>
    rw [foldl_cons, ih, length_append, length_singleton, length_cons]
    omega

theorem one_le_initialLastFrame (playback : PlaybackInfo F) (settings : OptimizerSettings R A) :
    1 ≤ initialLastFrame playback settings := by
  unfold initialLastFrame
  dsimp only
  split <;> omega

theorem driven_init (ops : Arith R) (opt : Optimizer F R A) (playback : PlaybackInfo F)
    (settings : OptimizerSettings R A) (hne : settings.algorithms ≠ [])
    (hidle : ∀ a ∈ settings.algorithms, idle (alg.reset a))
    (hscript : P (opt.init ops alg playback settings).currentRun.script) :
    Driven idle working P (opt.init ops alg playback settings) := by
  refine ⟨?_, length_getCompoundingProbs ops alg _, one_le_initialLastFrame playback settings,
    fun i hi => (nomatch hi), ?_, hscript, hscript⟩
  · intro h
    exact hne (map_eq_nil_iff.mp h)
  · intro j a ha _
    obtain ⟨b, hb, rfl⟩ := mem_map.mp (mem_of_getElem? ha)
    exact hidle b hb

theorem Driven.probs_ne_nil {s : Optimizer F R A} (hs : Driven idle held P s) :
    s.compoundingProbs ≠ [] := by
  intro h
  have hlen := hs.probs
  rw [h] at hlen
  exact hs.nonempty (length_eq_zero_iff.mp hlen.symm)

theorem reportToAlgorithm_spec (hlife : LifeCycle alg idle ready working P) {s : Optimizer F R A}
    (hs : Driven idle working P s) :
    ∃ t, s.reportToAlgorithm alg = some t ∧ Driven idle ready P t := by
  unfold reportToAlgorithm
  split
  · next hcur =>
    refine ⟨s, rfl, hs.nonempty, hs.probs, hs.lastFrame, fun i hi => ?_, hs.others, hs.script,
      hs.best⟩
    rw [hcur] at hi
    cases hi
  · next i hcur =>
    obtain ⟨a, ha, hwork⟩ := hs.current i hcur
    simp only [ha, some_bind]
    split
    · next hcont =>
      have hrep : Replaces s { s with
          algorithms := s.algorithms.set i (alg.reportResult a s.currentRun.efficacy) } i _ :=
        ⟨hcur, rfl, rfl, rfl⟩
      exact ⟨_, rfl, hrep.driven hs hcur (hlife.ready_of_continue _ a _ hwork hcont) hs.script
        hs.best⟩
    · next hcont =>
      have hidle := hlife.idle_of_reset _ a _ hwork (Bool.eq_false_iff.mpr hcont)
      split
      · exact ⟨_, rfl, Replaces.driven_none ⟨hcur, rfl, rfl, rfl⟩ hs rfl hidle hs.best hs.best⟩
      · exact ⟨_, rfl, Replaces.driven_none ⟨hcur, rfl, rfl, rfl⟩ hs rfl hidle hs.script hs.best⟩

/-- What holds when `OnRunnerFrame` has its answer, and when it calls `Mutate`. -/
def PendingOk (idle : A → Prop) (ready working : ℕ → A → Prop) (P : TASScript F → Prop) :
    Pending F R A → Prop
  | .answered opt _ => Driven idle working P opt
  | .calls opt i => opt.currentAlgorithm = some i ∧ Driven idle ready P opt

theorem complete_spec (hlife : LifeCycle alg idle ready working P) {p : Pending F R A}
    (hp : PendingOk idle ready working P p) :
    ∃ opt state, complete alg p = some (opt, state) ∧ Driven idle working P opt := by
  cases p with
  | answered opt state => exact ⟨opt, state, rfl, hp⟩
  | calls opt i =>
    obtain ⟨hcur, hopt⟩ := hp
    obtain ⟨a, ha, hready⟩ := hopt.current i hcur
    obtain ⟨a', t, rng, hmutate, hwork, hscript⟩ := hlife.mutate a opt hready hopt.script
    refine ⟨afterMutate opt i a' t rng, .newIteration, ?_, ?_⟩
    · simp only [complete, ha, hmutate, some_bind]
    · exact Replaces.driven ⟨hcur, rfl, rfl, rfl⟩ hopt hcur hwork hscript hopt.best

theorem driven_resetIteration (ops : Arith R) {s : Optimizer F R A} (h : Driven idle held P s) :
    Driven idle held P (s.resetIteration ops) :=
  ⟨h.nonempty, h.probs, h.lastFrame, h.current, h.others, h.script, h.best⟩

variable [LinearOrder R] {ops : Arith R}

theorem sameCalls_withFrame (s : Optimizer F R A) (data : ExtendedFrameData R) :
    SameCalls s (withFrame s data) := by
  obtain ⟨hscript, -⟩ := recordFrame_spec s.currentRun data
  unfold withFrame
  split
  · exact ⟨rfl, rfl, rfl, rfl, hscript, .inl rfl⟩
  · exact ⟨rfl, rfl, rfl, rfl, hscript, .inl rfl⟩

theorem sameCalls_scoreRun (ops : Arith R) (s : Optimizer F R A) : SameCalls s (s.scoreRun ops) := by
  unfold scoreRun prepareScoring
  dsimp only
  split
  · split <;> exact ⟨rfl, rfl, rfl, rfl, rfl, .inl rfl⟩
  · split <;> exact ⟨rfl, rfl, rfl, rfl, rfl, .inl rfl⟩

theorem sameCalls_keepBest (s : Optimizer F R A) : SameCalls s s.keepBest := by
  unfold keepBest
  split
  · exact ⟨rfl, rfl, rfl, rfl, rfl, .inr rfl⟩
  · exact ⟨rfl, rfl, rfl, rfl, rfl, .inl rfl⟩

theorem selectIndex_lt {value : R} {probs : List R} (h : probs ≠ []) :
    selectIndex value probs < probs.length := by
  have hpos : 0 < probs.length := length_pos_iff.mpr h
  unfold selectIndex
  omega

theorem chooseAlgorithm_spec (hlife : LifeCycle alg idle ready working P) {s : Optimizer F R A}
    (hs : Driven idle ready P s) :
    (s.chooseAlgorithm ops).1.currentAlgorithm = some (s.chooseAlgorithm ops).2 ∧
      Driven idle ready P (s.chooseAlgorithm ops).1 := by
  unfold chooseAlgorithm
  split
  · next i hcur => exact ⟨hcur, hs⟩
  · next hcur =>
    have hidle : ∀ (j : ℕ) (a : A), s.algorithms[j]? = some a → idle a := by
      intro j a ha
      refine hs.others j a ha ?_
      rw [hcur]
      exact nofun
    have hlt : selectIndex (ops.unit (draw s.rng).1) s.compoundingProbs <
        s.algorithms.length := hs.probs ▸ selectIndex_lt hs.probs_ne_nil
    refine ⟨rfl, hs.nonempty, hs.probs, hs.lastFrame, fun i hi => ?_, fun j a ha _ => hidle j a ha,
      hs.script, hs.best⟩
    cases hi
    have ha := getElem?_eq_getElem hlt
    exact ⟨_, ha, hlife.ready_of_idle _ _ (hidle _ _ ha)⟩

theorem finishUpToMutate_spec (ops : Arith R) (hlife : LifeCycle alg idle ready working P)
    {s : Optimizer F R A} (hs : Driven idle working P s) :
    ∃ p, finishUpToMutate ops alg s = some p ∧ PendingOk idle ready working P p := by
  have hkeep := ((sameCalls_scoreRun ops s).trans (sameCalls_keepBest _)).driven hs
  unfold finishUpToMutate
  dsimp only
  split
  · exact ⟨_, rfl, hkeep.nonempty, hkeep.probs, hkeep.lastFrame, hkeep.current, hkeep.others,
      hkeep.script, hkeep.best⟩
  · obtain ⟨t, ht, hready⟩ := reportToAlgorithm_spec hlife hkeep
    simp only [ht, some_bind]
    rw [if_neg (by simp [hready.nonempty])]
    exact ⟨_, rfl, chooseAlgorithm_spec hlife hready⟩

/-- **The optimizer calls `Mutate` only on an algorithm that is ready for it.** -/
theorem upToMutate_spec (ops : Arith R) (hlife : LifeCycle alg idle ready working P)
    {s : Optimizer F R A} (hs : Driven idle working P s) (data : ExtendedFrameData R) :
    ∃ p, upToMutate ops alg s data = some p ∧ PendingOk idle ready working P p := by
  have hframe := (sameCalls_withFrame s data).driven hs
  unfold upToMutate
  dsimp only
  split
  · exact finishUpToMutate_spec ops hlife hframe
  · split
    · exact ⟨_, rfl, hframe⟩
    · exact ⟨_, rfl, hframe⟩

/-! ## Runs -/

theorem step_driven (ops : Arith R) (hlife : LifeCycle alg idle ready working P)
    {r : Runner F R A} (hr : Driven idle working P r.opt) (data : ExtendedFrameData R) :
    ∃ r', r.step ops alg data = some r' ∧ Driven idle working P r'.opt := by
  obtain ⟨p, hp, hok⟩ := upToMutate_spec ops hlife hr data
  obtain ⟨opt, state, hcomplete, hopt⟩ := complete_spec hlife hok
  have hframe : r.opt.onRunnerFrame ops alg data = some (opt, state) := by
    rw [onRunnerFrame_eq, hp]
    exact hcomplete
  unfold Runner.step Runner.next
  simp only [hframe, some_bind]
  cases state with
  | newIteration => exact ⟨_, rfl, driven_resetIteration ops hopt⟩
  | continueIteration => exact ⟨_, rfl, hopt⟩
  | stop => exact ⟨_, rfl, hopt⟩

/-- **Every run of frames returns**, and the contract holds after it. -/
theorem run_driven (ops : Arith R) (hlife : LifeCycle alg idle ready working P)
    {r : Runner F R A} (hr : Driven idle working P r.opt) (datas : List (ExtendedFrameData R)) :
    ∃ r', run (Runner.step ops alg) r datas = some r' ∧ Driven idle working P r'.opt :=
  history_run (I := fun _ (r : Runner F R A) => Driven idle working P r.opt)
    (fun _ _ data h => step_driven ops hlife h data) hr datas

end Invariant

end TASQuake.Analysis.OptimizerCalls
