import TASQuake.Analysis.MutationOrder
import TASQuake.Analysis.OptimizerCalls
import TASQuake.Analysis.TimeShift
import TASQuake.Analysis.TurnSearch

/-!
# The optimizer's algorithms at work

The six algorithms keep the contract of `OptimizerCalls` (`lifeCycle`).  Two of them need a block:
`RNGStrafer` divides by the number of blocks and `RNGBlockMover` reads the block that it has found.
`WantsToRun` says so, but nobody asks it.
-/

namespace TASQuake.Analysis.OptimizerSafety

open Lib BestRun OptimizerCalls MutationOrder Algorithm TurnOptimizer Runner Option
open TurnSearch

variable {F R : Type}

/-! ## The life of a turn optimizer -/

/-- No search has been started. -/
structure Unstarted (s : BinSearcher R) : Prop where
  state : s.state = .noSearch
  iteration : s.mappingIteration = 0

/-- The turn optimizer has no turn. -/
structure TurnIdle (turner : TurnOptimizer F R) : Prop where
  turnIndex : turner.turnIndex = none
  searcher : Unstarted turner.searcher

/-- The turn and the strafe that is searched for are two of the first `n` blocks. -/
def OnBlocks (n : ℕ) (self : TurnOptimizer F R) : Prop :=
  ∃ turn strafe, self.turnIndex = some turn ∧ self.strafeIndex = some strafe ∧ turn < n ∧ strafe < n

/-- The search of a turn optimizer after some results: it measures the points of its range, or it
has measured all six of them and bisects. -/
inductive Underway (ops : MutatorArith F R) (self : TurnOptimizer F R) : Prop where
  | measuring (efficacy : R) (results : List R)
      (h : Mapping ops (ops.ofFloat self.origStrafeYaw) efficacy
        (ops.add (ops.ofFloat self.origStrafeYaw) self.searchMax) (ops.frac 1 100) results
        self.searcher)
  | bisecting (efficacy : R) (results : List R) (length_eq : results.length = 6)
      (state : self.searcher.state = .binarySearch)
      (mapping : self.searcher.mapping = mapped ops (ops.ofFloat self.origStrafeYaw) efficacy
        (ops.add (ops.ofFloat self.origStrafeYaw) self.searchMax) results)

/-- Before `Mutate`. -/
def TurnReady (ops : MutatorArith F R) (n : ℕ) (self : TurnOptimizer F R) : Prop :=
  TurnIdle self ∨ OnBlocks n self ∧ Underway ops self

/-- After `Mutate`. -/
def TurnWorking (ops : MutatorArith F R) (n : ℕ) (self : TurnOptimizer F R) : Prop :=
  TurnIdle self ∨ OnBlocks n self ∧ (Unstarted self.searcher ∨ Underway ops self)

variable {self : TurnOptimizer F R} {n : ℕ}

theorem OnBlocks.mono {m : ℕ} (h : OnBlocks n self) (hnm : n ≤ m) : OnBlocks m self := by
  obtain ⟨turn, strafe, hturn, hstrafe, hlt, hlt'⟩ := h
  exact ⟨turn, strafe, hturn, hstrafe, hlt.trans_le hnm, hlt'.trans_le hnm⟩

variable (ops : MutatorArith F R)

theorem turnIdle_reset (self : TurnOptimizer F R) : TurnIdle (self.reset ops) :=
  ⟨rfl, rfl, rfl⟩

theorem Underway.state_ne {ops : MutatorArith F R} (h : Underway ops self) :
    self.searcher.state ≠ .noSearch := by
  cases h with
  | measuring efficacy results h =>
    rw [h.state]
    exact nofun
  | bisecting efficacy results _ state _ =>
    rw [state]
    exact nofun

/-- The points that a search has measured so far are the first ones of the range, and it proposes
the next one; when all six have been measured it bisects. -/
def UsesPoints (ops : MutatorArith F R) (self : TurnOptimizer F R) : Prop :=
  ∃ efficacy results,
    self.searcher.mapping = mapped ops (ops.ofFloat self.origStrafeYaw) efficacy
      (ops.add (ops.ofFloat self.origStrafeYaw) self.searchMax) results ∧
    (results.length ≤ 5 ∧ self.searcher.state = .mappingSpace ∧
        self.searcher.getValue ops = some (mappingPoint ops (ops.ofFloat self.origStrafeYaw)
          (ops.add (ops.ofFloat self.origStrafeYaw) self.searchMax) results.length) ∨
      results.length = 6 ∧ self.searcher.state = .binarySearch)

theorem Underway.usesPoints {ops : MutatorArith F R} (h : Underway ops self) :
    UsesPoints ops self := by
  cases h with
  | measuring efficacy results h =>
    exact ⟨efficacy, results, h.mapping, .inl ⟨h.length_le, h.state, h.getValue⟩⟩
  | bisecting efficacy results length_eq state mapping =>
    exact ⟨efficacy, results, mapping, .inr ⟨length_eq, state⟩⟩

theorem TurnReady.usesPoints {ops : MutatorArith F R} (h : TurnReady ops n self) :
    self.turnIndex = none ∨
      OnBlocks n self ∧ self.searcher.state ≠ .noSearch ∧ UsesPoints ops self :=
  h.imp TurnIdle.turnIndex fun h => ⟨h.1, h.2.state_ne, h.2.usesPoints⟩

theorem TurnWorking.onBlocks {ops : MutatorArith F R} (h : TurnWorking ops n self) :
    self.turnIndex = none ∨ OnBlocks n self :=
  h.imp TurnIdle.turnIndex And.left

section Report

variable [LinearOrder R]

theorem report_eq_none_iff (ops : MutatorArith F R) (s : BinSearcher R) (result : R) :
    s.report ops result = none ↔ s.state = .noSearch := by
  unfold BinSearcher.report BinSearcher.getValue
  cases s.state <;> simp

/-- `ReportResult` starts a search if there is none, and reports to it otherwise. -/
def ReportsToSearch (ops : MutatorArith F R) (self : TurnOptimizer F R) (efficacy : R) : Prop :=
  if self.searcher.state = .noSearch then
    self.reportResult ops efficacy =
      { self with
        searcher := self.searcher.init ops (ops.ofFloat self.origStrafeYaw) efficacy
          (ops.add (ops.ofFloat self.origStrafeYaw) self.searchMax) (ops.frac 1 100) }
  else ∃ s, self.searcher.report ops efficacy = some s ∧
    self.reportResult ops efficacy = { self with searcher := s }

theorem reportsToSearch (ops : MutatorArith F R) (self : TurnOptimizer F R) (efficacy : R) :
    ReportsToSearch ops self efficacy := by
  unfold ReportsToSearch TurnOptimizer.reportResult
  have hnone := report_eq_none_iff ops self.searcher efficacy
  split
  · next hstate => rw [hnone.mpr hstate]
  · next hstate =>
    obtain ⟨s, hs⟩ := ne_none_iff_exists'.mp (hnone.not.mpr hstate)
    exact ⟨s, hs, by rw [hs]⟩

variable {self : TurnOptimizer F R}

theorem reportResult_unstarted (ops : MutatorArith F R) (h : Unstarted self.searcher) (efficacy : R) :
    (self.reportResult ops efficacy).turnIndex = self.turnIndex ∧
      (self.reportResult ops efficacy).strafeIndex = self.strafeIndex ∧
      Underway ops (self.reportResult ops efficacy) := by
  unfold TurnOptimizer.reportResult
  rw [(report_eq_none_iff ops self.searcher efficacy).mpr h.state]
  exact ⟨rfl, rfl, .measuring efficacy [] (mapping_init h.iteration)⟩

variable {ops : MutatorArith F R}

theorem Underway.reportResult (h : Underway ops self) (efficacy : R) :
    (self.reportResult ops efficacy).turnIndex = self.turnIndex ∧
      (self.reportResult ops efficacy).strafeIndex = self.strafeIndex ∧
      (Underway ops (self.reportResult ops efficacy) ∨
        (self.reportResult ops efficacy).searcher.state = .finished) := by
  unfold TurnOptimizer.reportResult
  cases h with
  | measuring first results h =>
    rcases Nat.lt_or_ge results.length 5 with hlt | hge
    · obtain ⟨s', hs', hmapping⟩ := h.report hlt efficacy
      rw [hs']
      exact ⟨rfl, rfl, .inl (.measuring first (results ++ [efficacy]) hmapping)⟩
    · have hlen := le_antisymm h.length_le hge
      obtain ⟨s', hs', hover⟩ := h.report_last hlen efficacy
      rw [hs']
      refine ⟨rfl, rfl, .inl (.bisecting first (results ++ [efficacy]) ?_ hover.state hover.mapping)⟩
      rw [List.length_append, hlen]
      rfl
  | bisecting first results length_eq state mapping =>
    have hreport : self.searcher.report ops efficacy = some
        { self.searcher with
          cliffer := self.searcher.cliffer.report ops efficacy
          state := if (self.searcher.cliffer.report ops efficacy).state = .finished then .finished
            else .binarySearch } := by
      unfold BinSearcher.report
      rw [state]
    rw [hreport]
    refine ⟨rfl, rfl, ?_⟩
    by_cases hfin : (self.searcher.cliffer.report ops efficacy).state = .finished
    · exact .inr (if_pos hfin)
    · exact .inl (.bisecting first results length_eq (if_neg hfin) mapping)

theorem TurnWorking.continues {n : ℕ} (h : TurnWorking ops n self) (efficacy : R)
    (hcont : (self.reportResult ops efficacy).wantsToContinue = true) :
    TurnReady ops n (self.reportResult ops efficacy) := by
  unfold TurnOptimizer.wantsToContinue at hcont
  simp only [Bool.and_eq_true, decide_eq_true_eq] at hcont
  obtain ⟨hturn, hstate⟩ := hcont
  rcases h with hidle | ⟨⟨turn, strafe, hti, hsi, hlt, hlt'⟩, hsearch⟩
  · obtain ⟨heq, -⟩ := reportResult_unstarted ops hidle.searcher efficacy
    rw [heq, hidle.turnIndex] at hturn
    cases hturn
  · rcases hsearch with hunstarted | hunderway
    · obtain ⟨hti', hsi', hnext⟩ := reportResult_unstarted ops hunstarted efficacy
      exact .inr ⟨⟨turn, strafe, hti'.trans hti, hsi'.trans hsi, hlt, hlt'⟩, hnext⟩
    · obtain ⟨hti', hsi', hnext⟩ := hunderway.reportResult efficacy
      refine .inr ⟨⟨turn, strafe, hti'.trans hti, hsi'.trans hsi, hlt, hlt'⟩, ?_⟩
      exact hnext.resolve_right hstate

theorem TurnReady.mutate {s : TASScript F} (h : TurnReady ops s.blocks.length self) (rng : Draws) :
    ∃ self' t rng', self.mutate ops s rng = some (self', t, rng') ∧
      s.blocks.length ≤ t.blocks.length ∧ TurnWorking ops t.blocks.length self' := by
  unfold TurnOptimizer.mutate
  rcases h with hidle | ⟨⟨turn, strafe, hti, hsi, hlt, hlt'⟩, hunderway⟩
  · obtain ⟨found, rng', hfind, hsome, -⟩ :=
      findSuitableBlock_spec ops isTurnFrameBlock s rng
    simp only [hidle.turnIndex, init, hfind, some_bind]
    cases found with
    | none => exact ⟨self, s, rng', rfl, le_rfl, .inl hidle⟩
    | some turn =>
      obtain ⟨hlt, -⟩ := hsome turn rfl
      obtain ⟨self', t, rng'', heq, hpres, hvalid, hsearcher, hturn⟩ :=
        initTurn_spec ops self hlt rng'
      refine ⟨self', t, rng'', heq, hpres.length_le, ?_⟩
      have hunstarted := hsearcher ▸ hidle.searcher
      cases hti : self'.turnIndex with
      | none => exact .inl ⟨hti, hunstarted⟩
      | some i =>
        obtain ⟨strafe, hsi, hlt'⟩ := hvalid i hti
        refine .inr ⟨⟨i, strafe, hti, hsi, ?_, hlt'⟩, .inl hunstarted⟩
        exact (hturn i hti) ▸ hlt.trans_le hpres.length_le
  · obtain ⟨value, hvalue⟩ : ∃ value, self.searcher.getValue ops = some value := by
      cases hunderway with
      | measuring efficacy results h => exact ⟨_, h.getValue⟩
      | bisecting efficacy results _ state _ =>
        unfold BinSearcher.getValue
        rw [state]
        exact ⟨_, rfl⟩
    obtain ⟨t, ht, hpres⟩ := writeStrafeYaw_spec ops s hlt' (ops.normalizeDeg value)
    simp only [hti, hvalue, hsi, ht, some_bind]
    refine ⟨self, t, rng, rfl, hpres.length_le, .inr ⟨?_, .inr hunderway⟩⟩
    exact OnBlocks.mono ⟨turn, strafe, hti, hsi, hlt, hlt'⟩ hpres.length_le

end Report

/-! ## The life of the six algorithms -/

/-- The algorithms whose `Mutate` reads a block without looking whether there is one. -/
def NeedsBlock : Algorithm F R → Prop
  | .rngStrafer => True
  | .rngBlockMover => True
  | _ => False

def Idle : Algorithm F R → Prop
  | .turnOptimizer self => TurnIdle self
  | .strafeAdjuster self => self.currentBlockIndex = none
  | .frameBlockMover self => self.currentBlockIndex = none
  | _ => True

/-- Before `Mutate` on a script of `n` blocks. -/
def Ready (ops : MutatorArith F R) (n : ℕ) : Algorithm F R → Prop
  | .turnOptimizer self => TurnReady ops n self
  | .strafeAdjuster self => RollerValid n self
  | .frameBlockMover self => RollerValid n self
  | _ => True

/-- After `Mutate` has left a script of `n` blocks. -/
def Working (ops : MutatorArith F R) (n : ℕ) : Algorithm F R → Prop
  | .turnOptimizer self => TurnWorking ops n self
  | .strafeAdjuster self => RollerValid n self
  | .frameBlockMover self => RollerValid n self
  | _ => True

theorem idle_make (e : AlgorithmEnum) : Idle ((make ops e).reset ops) := by
  cases e with
  | turnOptimizer => exact turnIdle_reset ops _
  | rngStrafer => trivial
  | rngBlockMover => trivial
  | rngShooter => trivial
  | strafeAdjuster => rfl
  | frameBlockMover => rfl

theorem rollerValid_of_none {self : BlockRoller R} (h : self.currentBlockIndex = none) :
    RollerValid n self := by
  intro i hi
  rw [h] at hi
  cases hi

theorem Idle.ready (n : ℕ) {a : Algorithm F R} (h : Idle a) : Ready ops n a := by
  cases a with
  | turnOptimizer self => exact .inl h
  | rngStrafer => trivial
  | rngBlockMover => trivial
  | rngShooter => trivial
  | strafeAdjuster self => exact rollerValid_of_none h
  | frameBlockMover self => exact rollerValid_of_none h

theorem needsBlock_reset (a : Algorithm F R) : NeedsBlock (a.reset ops) ↔ NeedsBlock a := by
  cases a <;> rfl

theorem not_needsBlock_make {e : AlgorithmEnum} (h : e ≠ .rngStrafer) (h' : e ≠ .rngBlockMover) :
    ¬ NeedsBlock ((make ops e).reset ops) := by
  rw [needsBlock_reset]
  cases e with
  | turnOptimizer => exact id
  | rngStrafer => exact absurd rfl h
  | rngBlockMover => exact absurd rfl h'
  | rngShooter => exact id
  | strafeAdjuster => exact id
  | frameBlockMover => exact id

section Calls

variable [LinearOrder R]

theorem needsBlock_reportResult (ops : MutatorArith F R) (a : Algorithm F R) (efficacy : R) :
    NeedsBlock (a.reportResult ops efficacy) ↔ NeedsBlock a := by
  cases a <;> rfl

variable {a : Algorithm F R} {ops : MutatorArith F R}

theorem Working.continues {n : ℕ} (h : Working ops n a) (efficacy : R)
    (hcont : (a.reportResult ops efficacy).wantsToContinue = true) :
    Ready ops n (a.reportResult ops efficacy) := by
  cases a with
  | turnOptimizer self => exact TurnWorking.continues h efficacy hcont
  | rngStrafer => trivial
  | rngBlockMover => trivial
  | rngShooter => trivial
  | strafeAdjuster self => exact rollerValid_reportResult ops h efficacy
  | frameBlockMover self => exact rollerValid_reportResult ops h efficacy

theorem idle_reset (ops : MutatorArith F R) (efficacy : R)
    (hcont : (a.reportResult ops efficacy).wantsToContinue = false) :
    Idle ((a.reportResult ops efficacy).reset ops) := by
  cases a with
  | turnOptimizer self => exact turnIdle_reset ops _
  | rngStrafer => trivial
  | rngBlockMover => trivial
  | rngShooter => trivial
  | strafeAdjuster self => rfl
  | frameBlockMover self => exact isSome_eq_false_iff.mp hcont |> isNone_iff_eq_none.mp

variable [BEq F]

variable {A : Type}

/-- `Mutate` returns from an algorithm that is ready and has a block if it needs one; no block is
lost. -/
theorem Ready.mutate (beyond : ℕ → FrameData R) {opt : Optimizer F R A}
    (h : Ready ops opt.currentRun.script.blocks.length a)
    (hblock : NeedsBlock a → opt.currentRun.script.blocks ≠ []) :
    ∃ a' t rng, a.mutate ops beyond opt = some (a', t, rng) ∧
      opt.currentRun.script.blocks.length ≤ t.blocks.length ∧ Working ops t.blocks.length a' ∧
      (NeedsBlock a' ↔ NeedsBlock a) := by
  cases a with
  | turnOptimizer self =>
    obtain ⟨self', t, rng, heq, hle, hwork⟩ := TurnReady.mutate h opt.rng
    exact ⟨.turnOptimizer self', t, rng, by simp [Algorithm.mutate, heq], hle, hwork, Iff.rfl⟩
  | rngStrafer =>
    obtain ⟨t, rng, heq, hpres⟩ :=
      rngStraferMutate_spec ops (hblock trivial) opt.rng
    exact ⟨.rngStrafer, t, rng, by simp [Algorithm.mutate, heq], hpres.length_le, trivial, Iff.rfl⟩
  | rngBlockMover =>
    obtain ⟨t, rng, heq, hle, -⟩ :=
      rngBlockMoverMutate_spec ops (hblock trivial) opt.lastFrame opt.rng
    exact ⟨.rngBlockMover, t, rng, by simp [Algorithm.mutate, heq], hle, trivial, Iff.rfl⟩
  | rngShooter =>
    have hpres := rngShooterMutate_preserves opt.currentRun.script opt.lastFrame opt.rng
    exact ⟨.rngShooter, _, _, rfl, hpres.length_le, trivial, Iff.rfl⟩
  | strafeAdjuster self =>
    obtain ⟨self', t, rng, heq, hpres, hvalid⟩ := strafeAdjusterMutate_spec ops beyond h
      opt.currentRun.vecData opt.currentRun.efficacy opt.rng
    exact ⟨.strafeAdjuster self', t, rng, by simp [Algorithm.mutate, heq], hpres.length_le, hvalid,
      Iff.rfl⟩
  | frameBlockMover self =>
    obtain ⟨self', t, rng, heq, hpres, hvalid⟩ := frameBlockMoverMutate_spec ops h
      opt.lastFrame opt.currentRun.efficacy opt.rng
    exact ⟨.frameBlockMover self', t, rng, by simp [Algorithm.mutate, heq], hpres.length_le, hvalid,
      Iff.rfl⟩

theorem mutate_eq_none (beyond : ℕ → FrameData R) {opt : Optimizer F R A} (ha : NeedsBlock a)
    (hnil : opt.currentRun.script.blocks = []) : a.mutate ops beyond opt = none := by
  have hlen := List.length_eq_zero_iff.mpr hnil
  cases a with
  | rngStrafer =>
    simp only [Algorithm.mutate, rngStraferMutate]
    rw [if_pos hlen]
    rfl
  | rngBlockMover =>
    simp only [Algorithm.mutate, rngBlockMoverMutate, findSuitableBlock]
    rw [if_pos hlen]
    rfl
  | turnOptimizer self => exact ha.elim
  | rngShooter => exact ha.elim
  | strafeAdjuster self => exact ha.elim
  | frameBlockMover self => exact ha.elim

theorem mutate_isSome_iff (beyond : ℕ → FrameData R) {opt : Optimizer F R A}
    (h : Ready ops opt.currentRun.script.blocks.length a) :
    (a.mutate ops beyond opt).isSome = true ↔
      (NeedsBlock a → opt.currentRun.script.blocks ≠ []) := by
  constructor
  · intro hsome hneeds hnil
    rw [mutate_eq_none beyond hneeds hnil] at hsome
    cases hsome
  · intro hblock
    obtain ⟨a', t, rng, heq, -⟩ := h.mutate beyond hblock
    rw [heq]
    rfl

/-- **The algorithms keep the contract**, on scripts that have a block or if none of the algorithms
needs one (`harmless`). -/
theorem lifeCycle (ops : MutatorArith F R) (beyond : ℕ → FrameData R) (harmless : Prop) :
    LifeCycle (algorithmOps ops beyond) (fun a => Idle a ∧ (harmless → ¬ NeedsBlock a))
      (fun n a => Ready ops n a ∧ (harmless → ¬ NeedsBlock a))
      (fun n a => Working ops n a ∧ (harmless → ¬ NeedsBlock a))
      (fun script => script.blocks ≠ [] ∨ harmless) := by
  refine ⟨fun n a h => ⟨h.1.ready ops n, h.2⟩, fun n a efficacy h hcont => ?_,
    fun n a efficacy h hcont => ?_, fun a opt h hscript => ?_⟩
  · refine ⟨Working.continues h.1 efficacy hcont, fun hh hneeds => h.2 hh ?_⟩
    exact (needsBlock_reportResult ops a efficacy).mp hneeds
  · refine ⟨idle_reset ops efficacy hcont, fun hh hneeds => h.2 hh ?_⟩
    exact (needsBlock_reportResult ops a efficacy).mp ((needsBlock_reset ops _).mp hneeds)
  · obtain ⟨a', t, rng, heq, hle, hwork, hneeds⟩ := Ready.mutate beyond h.1 fun hneeds =>
      hscript.resolve_right fun hh => h.2 hh hneeds
    refine ⟨a', t, rng, heq, ⟨hwork, fun hh => hneeds.not.mpr (h.2 hh)⟩, ?_⟩
    refine hscript.imp_left fun hne hnil => hne ?_
    rw [hnil] at hle
    exact List.length_eq_zero_iff.mp (Nat.le_zero.mp hle)

/-! ## Runs -/

/-- The game starts to run an optimizer that has been initialised. -/
def started (ops : MutatorArith F R) (beyond : ℕ → FrameData R)
    (opt : Optimizer F R (Algorithm F R)) (playback : PlaybackInfo F)
    (settings : OptimizerSettings R (Algorithm F R)) : Runner F R (Algorithm F R) :=
  start (opt.init ops.toArith (algorithmOps ops beyond) playback settings)

theorem started_blocks_ne_nil_iff {beyond : ℕ → FrameData R} {opt : Optimizer F R (Algorithm F R)}
    {playback : PlaybackInfo F} {settings : OptimizerSettings R (Algorithm F R)} :
    (started ops beyond opt playback settings).script.blocks ≠ [] ↔
      playback.currentFrame ≠ 0 ∨ playback.currentScript.blocks ≠ [] := by
  have hscript : (started ops beyond opt playback settings).script.blocks =
      (if playback.currentFrame = 0 then playback
        else playback.getTimeShiftedVersion (-1)).currentScript.blocks := rfl
  rw [hscript]
  by_cases hframe : playback.currentFrame = 0
  · rw [if_pos hframe, or_iff_right (not_not.mpr hframe)]
  · rw [if_neg hframe]
    exact iff_of_true (TimeShift.getTimeShiftedVersion_ne_nil playback (-1)) (.inl hframe)

theorem driven_started {beyond : ℕ → FrameData R} {opt : Optimizer F R (Algorithm F R)}
    {playback : PlaybackInfo F} {settings : OptimizerSettings R (Algorithm F R)}
    {es : List AlgorithmEnum} (hes : es ≠ [])
    (hset : settings.algorithms = es.map (make ops)) {harmless : Prop}
    (hharmless : harmless → .rngStrafer ∉ es ∧ .rngBlockMover ∉ es)
    (hscript : (started ops beyond opt playback settings).script.blocks ≠ [] ∨ harmless) :
    Driven (fun a => Idle a ∧ (harmless → ¬ NeedsBlock a))
      (fun n a => Working ops n a ∧ (harmless → ¬ NeedsBlock a))
      (fun script => script.blocks ≠ [] ∨ harmless)
      (started ops beyond opt playback settings).opt := by
  refine driven_init ops.toArith opt playback settings ?_ (fun a ha => ?_) hscript
  · rw [hset]
    simpa using hes
  · rw [hset] at ha
    obtain ⟨e, he, rfl⟩ := List.mem_map.mp ha
    refine ⟨idle_make ops e, fun hh => ?_⟩
    obtain ⟨hstrafer, hmover⟩ := hharmless hh
    exact not_needsBlock_make ops (fun h => hstrafer (h ▸ he)) fun h => hmover (h ▸ he)

/-- What a call of `Mutate` finds: the algorithm is in the list, its probability is in the vector,
and `RNGShooter` draws from a range that is not empty. -/
structure InRange {A : Type} (opt : Optimizer F R A) (i : ℕ) : Prop where
  algorithm : i < opt.algorithms.length
  prob : i < opt.compoundingProbs.length
  randomInt : 0 < opt.lastFrame / 36 + 2 - 1

/-- **Every frame returns** if the script has a block or is not played from its beginning, or if
neither `RNGStrafer` nor `RNGBlockMover` is among the algorithms: nothing is divided by zero or
indexed out of range.  For a single call of an algorithm that is ready the condition is exact. -/
theorem mutations_are_safe (ops : MutatorArith F R) (beyond : ℕ → FrameData R)
    (opt : Optimizer F R (Algorithm F R)) (playback : PlaybackInfo F)
    (settings : OptimizerSettings R (Algorithm F R)) (es : List AlgorithmEnum) (hes : es ≠ [])
    (hset : settings.algorithms = es.map (make ops))
    (hsafe : (playback.currentFrame ≠ 0 ∨ playback.currentScript.blocks ≠ []) ∨
      .rngStrafer ∉ es ∧ .rngBlockMover ∉ es)
    (datas : List (ExtendedFrameData R)) :
    (∃ r, run (step ops.toArith (algorithmOps ops beyond))
        (started ops beyond opt playback settings) datas = some r ∧
      ∀ data, (r.opt.onRunnerFrame ops.toArith (algorithmOps ops beyond) data).isSome = true ∧
        ∀ t i, upToMutate ops.toArith (algorithmOps ops beyond) r.opt data = some (.calls t i) →
          InRange t i) ∧
      (∀ (p q : TASScript F → ℕ → Bool) (script : TASScript F) (rng : Draws),
        (∀ i < script.blocks.length, p script i = q script i) →
          findSuitableBlock ops p script rng = findSuitableBlock ops q script rng) ∧
      ∀ (a : Algorithm F R) (t : Optimizer F R (Algorithm F R)),
        Ready ops t.currentRun.script.blocks.length a →
          ((a.mutate ops beyond t).isSome = true ↔
            (NeedsBlock a → t.currentRun.script.blocks ≠ [])) := by
  have hlife := lifeCycle ops beyond (.rngStrafer ∉ es ∧ .rngBlockMover ∉ es)
  obtain ⟨r, hr, hdriven⟩ := run_driven ops.toArith hlife
    (driven_started hes hset id (hsafe.imp_left started_blocks_ne_nil_iff.mpr)) datas
  refine ⟨⟨r, hr, fun data => ?_⟩, fun p q script rng h =>
    findSuitableBlock_congr ops h rng, fun a t h => mutate_isSome_iff beyond h⟩
  obtain ⟨pending, hpending, hok⟩ := upToMutate_spec ops.toArith hlife hdriven data
  constructor
  · obtain ⟨opt', state, hcomplete, -⟩ := complete_spec hlife hok
    rw [onRunnerFrame_eq, hpending]
    simp [hcomplete]
  · intro t i hcalls
    rw [hpending] at hcalls
    cases hcalls
    obtain ⟨hcur, hcalling⟩ := hok
    obtain ⟨a, ha, -⟩ := hcalling.current i hcur
    obtain ⟨hlt, -⟩ := List.getElem?_eq_some_iff.mp ha
    refine ⟨hlt, hcalling.probs ▸ hlt, ?_⟩
    have hlast := hcalling.lastFrame
    omega

/-! ## Turn optimizers in a run -/

/-- **A turn optimizer never aborts.** Whenever its `Mutate` is called in a run, it has no turn, or
its indices are blocks of the script and its search is under way; `Mutate` returns with indices of
blocks of the script that it leaves.  For exact rationals every point is twice as far from the
original value as the one before it. -/
theorem turn_optimizer_never_aborts (ops : MutatorArith F R) (beyond : ℕ → FrameData R)
    (opt : Optimizer F R (Algorithm F R)) (playback : PlaybackInfo F)
    (settings : OptimizerSettings R (Algorithm F R)) (es : List AlgorithmEnum) (hes : es ≠ [])
    (hset : settings.algorithms = es.map (make ops))
    (hne : playback.currentScript.blocks ≠ [])
    (datas : List (ExtendedFrameData R)) :
    (∃ r, run (step ops.toArith (algorithmOps ops beyond))
        (started ops beyond opt playback settings) datas = some r ∧
      ∀ data t i self,
        upToMutate ops.toArith (algorithmOps ops beyond) r.opt data = some (.calls t i) →
        t.algorithms[i]? = some (.turnOptimizer self) →
          (self.turnIndex = none ∨ OnBlocks t.currentRun.script.blocks.length self ∧
            self.searcher.state ≠ .noSearch ∧ UsesPoints ops self) ∧
          ∃ self' script rng, self.mutate ops t.currentRun.script t.rng = some (self', script, rng) ∧
            (self'.turnIndex = none ∨ OnBlocks script.blocks.length self')) ∧
      (∀ (self : TurnOptimizer F R) (efficacy : R), ReportsToSearch ops self efficacy) ∧
      ∀ (distance : Vec ℚ → Vec ℚ → ℚ) (orig max : ℚ) (i : ℕ), i ≤ 5 →
        mappingPoint (rationalArith distance) orig max i =
          orig + (max - orig) * 2 ^ ((i : ℤ) - 5) := by
  have hlife := lifeCycle ops beyond False
  obtain ⟨r, hr, hdriven⟩ := run_driven ops.toArith hlife
    (driven_started hes hset False.elim (.inl (started_blocks_ne_nil_iff.mpr (.inr hne)))) datas
  refine ⟨⟨r, hr, fun data t i self hcalls hself => ?_⟩, reportsToSearch ops,
    fun distance orig max i hi => mappingPoint_eq hi⟩
  obtain ⟨pending, hpending, hok⟩ := upToMutate_spec ops.toArith hlife hdriven data
  rw [hpending] at hcalls
  cases hcalls
  obtain ⟨hcur, hcalling⟩ := hok
  obtain ⟨a, ha, hready, -⟩ := hcalling.current i hcur
  rw [hself] at ha
  cases ha
  obtain ⟨self', script, rng, heq, -, hwork⟩ := TurnReady.mutate hready t.rng
  exact ⟨TurnReady.usesPoints hready, self', script, rng, heq, hwork.onBlocks⟩

end Calls

/-! ## Two runs -/

/-- Settings for iterations of one frame. -/
def oneFrame (es : List AlgorithmEnum) : OptimizerSettings ℚ (Algorithm ℚ ℚ) :=
  { goal := .plusX
    targetPos := ⟨0, 0, 0⟩
    frames := 1
    algorithms := es.map (make exampleArith)
    useNodes := false }

/-- A frame at the origin. -/
def originFrame : ExtendedFrameData ℚ :=
  { frameData := ⟨⟨0, 0, 0⟩, 0⟩, hp := 100, ap := 0, time := 0, died := false
    intermission := false, teleported := false }

/-- An optimizer for a script; every random outcome is 0. -/
def exampleRunner (blocks : List (FrameBlock ℚ)) (es : List AlgorithmEnum) :
    Runner ℚ ℚ (Algorithm ℚ ℚ) :=
  started exampleArith (fun _ => ⟨⟨0, 0, 0⟩, 999⟩)
    (exampleOptimizer [] 1 []) { currentScript := { blocks := blocks } } (oneFrame es)

/-- The first frame of an empty script ends the program, with either of the two algorithms. -/
theorem empty_script_is_not_safe :
    (exampleRunner [] [.rngStrafer]).step exampleArith.toArith
        exampleAlgorithms originFrame = none ∧
      (exampleRunner [] [.rngBlockMover]).step exampleArith.toArith
        exampleAlgorithms originFrame = none := by
  refine ⟨isNone_iff_eq_none.mp ?_, isNone_iff_eq_none.mp ?_⟩ <;> decide +kernel

/-- With a block the same frames return. -/
theorem mutations_are_safe_oneBlock :
    ∃ r, run (step exampleArith.toArith exampleAlgorithms)
        (exampleRunner [{ frame := 0 }] [.rngStrafer, .rngBlockMover])
        [originFrame, originFrame] = some r ∧
      (r.opt.onRunnerFrame exampleArith.toArith exampleAlgorithms
        originFrame).isSome = true := by
  obtain ⟨⟨r, hr, hsafe⟩, -⟩ := mutations_are_safe exampleArith
    (fun _ => ⟨⟨0, 0, 0⟩, 999⟩) (exampleOptimizer [] 1 [])
    { currentScript := { blocks := [{ frame := 0 }] } } (oneFrame [.rngStrafer, .rngBlockMover])
    [.rngStrafer, .rngBlockMover] (by decide) rfl (.inl (.inr (by decide)))
    [originFrame, originFrame]
  exact ⟨r, hr, (hsafe originFrame).1⟩

/-- Two blocks that set the yaw. -/
def twoTurns : List (FrameBlock ℚ) :=
  [{ frame := 0, convars := OrderedMap.empty.put strafeYaw 10 },
    { frame := 10, convars := OrderedMap.empty.put strafeYaw 20 }]

/-- The turn optimizer whose `Mutate` is called. -/
def turnerOf : Pending ℚ ℚ (Algorithm ℚ ℚ) → Option (TurnOptimizer ℚ ℚ)
  | .calls t i =>
    match t.algorithms[i]? with
    | some (.turnOptimizer self) => some self
    | _ => none
  | _ => none

theorem turnerOf_eq_some {p : Pending ℚ ℚ (Algorithm ℚ ℚ)} {self : TurnOptimizer ℚ ℚ}
    (h : turnerOf p = some self) :
    ∃ t i, p = .calls t i ∧ t.algorithms[i]? = some (.turnOptimizer self) := by
  unfold turnerOf at h
  split at h
  · next t i =>
    split at h
    · next halg =>
      cases h
      exact ⟨t, i, rfl, halg⟩
    · cases h
  · cases h

/-- The second frame reports to the search of the turn at the second block, and goes on with it. -/
theorem turn_optimizer_never_aborts_twoTurns :
    ∃ r p self, run (step exampleArith.toArith exampleAlgorithms)
        (exampleRunner twoTurns [.turnOptimizer]) [originFrame] = some r ∧
      upToMutate exampleArith.toArith exampleAlgorithms r.opt
        originFrame = some p ∧
      turnerOf p = some self ∧ self.turnIndex = some 1 ∧
      self.searcher.state ≠ .noSearch ∧ UsesPoints exampleArith self := by
  obtain ⟨⟨r, hr, hcall⟩, -⟩ := turn_optimizer_never_aborts exampleArith
    (fun _ => ⟨⟨0, 0, 0⟩, 999⟩) (exampleOptimizer [] 1 [])
    { currentScript := { blocks := twoTurns } } (oneFrame [.turnOptimizer])
    [.turnOptimizer] (by decide) rfl (by decide) [originFrame]
  have hindex : ((run (step exampleArith.toArith
      exampleAlgorithms) (exampleRunner twoTurns [.turnOptimizer])
        [originFrame]).bind fun r => (upToMutate exampleArith.toArith
          exampleAlgorithms r.opt originFrame).bind fun p =>
            (turnerOf p).map turnIndex) = some (some 1) := by
    decide +kernel
  have hr' : run (step exampleArith.toArith exampleAlgorithms)
      (exampleRunner twoTurns [.turnOptimizer]) [originFrame] = some r := hr
  rw [hr', bind_some] at hindex
  obtain ⟨p, hp, hindex⟩ := bind_eq_some_iff.mp hindex
  obtain ⟨self, hself, hturn⟩ := map_eq_some_iff.mp hindex
  obtain ⟨t, i, rfl, halg⟩ := turnerOf_eq_some hself
  obtain ⟨hnone | ⟨-, hstate, hpoints⟩, -⟩ := hcall originFrame t i self hp halg
  · rw [hturn] at hnone
    cases hnone
  · exact ⟨r, _, self, hr', hp, hself, hturn, hstate, hpoints⟩

end TASQuake.Analysis.OptimizerSafety
