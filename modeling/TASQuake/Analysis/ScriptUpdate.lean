import TASQuake.Lib.Decimal
import TASQuake.Interface.ScriptMeaning
import TASQuake.Model.IpcPrediction
import Mathlib.Data.List.Forall2
import Mathlib.Data.Rat.Floor

/-!
# What `ApplyChanges` applies and reports

`TASScript::ApplyChanges` keeps the blocks of a script up to the first one that does not look like
the block of the new script with the same index.  Blocks look alike if their frames and their
printed texts are equal, and the text shows six digits of a number only.  If the new script only
cuts off blocks from the end, the frame reported is that of the last block that was cut off, not of
the first.
-/

namespace TASQuake.Analysis.ScriptUpdate

open Lib TASScript FrameBlock List

variable {F : Type} {ostream : F → Str}

/-! ## The comparison -/

/-- What is executed of a block, and when. -/
def executed (ostream : F → Str) (block : FrameBlock F) : Int × Str :=
  (block.frame, block.getCommand ostream)

variable {a b : FrameBlock F}

theorem sameBlock_iff :
    sameBlock ostream a b = true ↔ executed ostream a = executed ostream b := by
  unfold sameBlock executed
  rw [Bool.and_eq_true, decide_eq_true_eq, decide_eq_true_eq, Prod.mk.injEq]

/-- Every block looks like the one at the same index of the other list, as far as both go. -/
def LookAlike (ostream : F → Str) (old new : List (FrameBlock F)) : Prop :=
  ∀ p ∈ old.zip new, sameBlock ostream p.1 p.2 = true

variable {new old : List (FrameBlock F)}

theorem lookAlike_cons :
    LookAlike ostream (a :: old) (b :: new) ↔
      sameBlock ostream a b = true ∧ LookAlike ostream old new :=
  forall_mem_cons

theorem LookAlike.map_executed (h : LookAlike ostream old new) (hlen : old.length = new.length) :
    old.map (executed ostream) = new.map (executed ostream) := by
  induction old generalizing new with
  | nil => rw [length_eq_zero_iff.mp hlen.symm]
  | cons a old ih =>
    cases new with
    | nil => exact absurd hlen nofun
    | cons b new =>
      obtain ⟨hab, hrest⟩ := lookAlike_cons.mp h
      rw [map_cons, map_cons, sameBlock_iff.mp hab, ih hrest (Nat.succ.inj hlen)]

/-- The comparison stopped between `keptOld` and `keptNew`, which look alike, and the blocks `a`
and `b`, which do not. -/
structure StoppedAt (ostream : F → Str) (old new : List (FrameBlock F))
    (keptOld keptNew : List (FrameBlock F)) (a b : FrameBlock F)
    (restOld restNew : List (FrameBlock F)) : Prop where
  old_eq : old = keptOld ++ a :: restOld
  new_eq : new = keptNew ++ b :: restNew
  length_eq : keptOld.length = keptNew.length
  alike : LookAlike ostream keptOld keptNew
  differ : sameBlock ostream a b = false

variable {keptNew keptOld restNew restOld : List (FrameBlock F)}

theorem StoppedAt.cons {c d : FrameBlock F}
    (h : StoppedAt ostream old new keptOld keptNew a b restOld restNew)
    (hcd : sameBlock ostream c d = true) :
    StoppedAt ostream (c :: old) (d :: new) (c :: keptOld) (d :: keptNew) a b restOld restNew where
  old_eq := by rw [h.old_eq, cons_append]
  new_eq := by rw [h.new_eq, cons_append]
  length_eq := congrArg Nat.succ h.length_eq
  alike := lookAlike_cons.mpr ⟨hcd, h.alike⟩
  differ := h.differ

theorem compareBlocks_cases (ostream : F → Str) (first : Int) (old new : List (FrameBlock F)) :
    LookAlike ostream old new ∧
        compareBlocks ostream first old new = (min old.length new.length, first) ∨
      ∃ keptOld keptNew a b restOld restNew,
        StoppedAt ostream old new keptOld keptNew a b restOld restNew ∧
        compareBlocks ostream first old new =
          (keptOld.length, min a.frame b.frame) := by
  induction old generalizing new with
  | nil => exact .inl ⟨nofun, by simp [compareBlocks]⟩
  | cons c old ih =>
    cases new with
    | nil => exact .inl ⟨by simp [LookAlike], by simp [compareBlocks]⟩
    | cons d new =>
      cases hcd : sameBlock ostream c d with
      | false =>
        refine .inr ⟨[], [], c, d, old, new, ⟨rfl, rfl, rfl, nofun, hcd⟩, ?_⟩
        simp [compareBlocks, hcd]
      | true =>
        obtain ⟨halike, heq⟩ | ⟨keptOld, keptNew, a, b, restOld, restNew, hstop, heq⟩ := ih new
        · refine .inl ⟨lookAlike_cons.mpr ⟨hcd, halike⟩, ?_⟩
          simp [compareBlocks, hcd, heq, Nat.succ_min_succ]
        · refine .inr ⟨c :: keptOld, d :: keptNew, a, b, restOld, restNew, hstop.cons hcd, ?_⟩
          simp [compareBlocks, hcd, heq]

/-! ## The blocks -/

/-- The pairs of blocks before the first one in which the blocks do not look alike. -/
def keptPairs (ostream : F → Str) (old new : List (FrameBlock F)) :
    List (FrameBlock F × FrameBlock F) :=
  (old.zip new).takeWhile fun p => sameBlock ostream p.1 p.2

/-- `ApplyChanges` makes every block the one of the new script, in contents, exactly if this is
so of the blocks that it keeps. -/
theorem applyChanges_sameContents_iff (ostream : F → Str) (old new : TASScript F) :
    List.Forall₂ SameContents (old.applyChanges ostream new).1.blocks new.blocks ↔
      ∀ p ∈ keptPairs ostream old.blocks new.blocks, SameContents p.1 p.2 := by
  show List.Forall₂ SameContents
    (old.blocks.take (compareBlocks ostream _ old.blocks new.blocks).1 ++
      new.blocks.drop (compareBlocks ostream _ old.blocks new.blocks).1) new.blocks ↔ _
  generalize lastBlockFrame old.blocks = first
  generalize old.blocks = a
  generalize new.blocks = b
  -- along both lists, as the comparison goes
  induction a generalizing b with
  | nil => simp [compareBlocks, keptPairs, SameContents.refl]
  | cons x a ih =>
    cases b with
    | nil => simp [compareBlocks, keptPairs]
    | cons y b =>
      cases hxy : sameBlock ostream x y with
      | false => simp [compareBlocks, keptPairs, hxy, SameContents.refl]
      | true =>
        simp only [compareBlocks, hxy, if_true, take_succ_cons, drop_succ_cons,
          cons_append, forall₂_cons, ih b]
        simp [keptPairs, hxy]

/-- The integer nearest to a rational number, the even one of two. -/
def roundHalfEven (x : ℚ) : ℕ :=
  let down := ⌊x⌋.toNat
  let rest := x - down
  if rest < 1 / 2 then down
  else if 1 / 2 < rest then down + 1
  else down + down % 2

/-- `operator<<(std::ostream&, float)` of a number from 1 to 999999: six significant digits, without
the zeros at the end of the fraction. -/
def sixDigits (x : ℚ) : Str :=
  let places := 6 - (decimal ⌊x⌋.toNat).length
  let scaled := roundHalfEven (x * 10 ^ places)
  let fraction := decimal (scaled % 10 ^ places)
  let padded := replicate (places - fraction.length) 48 ++ fraction
  let digits := (padded.reverse.dropWhile (· == 48)).reverse
  decimal (scaled / 10 ^ places) ++ if digits.isEmpty then [] else str "." ++ digits

/-- A block that sets the strafe yaw. -/
def yawBlock (frame : Int) (yaw : ℚ) : FrameBlock ℚ :=
  { parsed := true, frame := frame, convars := OrderedMap.empty.put (str "tas_strafe_yaw") yaw }

/-- Turning from 30 degrees to the next `float` after it is not applied. -/
theorem next_float_not_applied :
    ¬ List.Forall₂ SameContents
      (({ blocks := [yawBlock 8 30] } : TASScript ℚ).applyChanges sixDigits
        { blocks := [yawBlock 8 (30 + 1 / 2 ^ 19)] }).1.blocks
      [yawBlock 8 (30 + 1 / 2 ^ 19)] := by
  have hkept : (({ blocks := [yawBlock 8 30] } : TASScript ℚ).applyChanges sixDigits
      { blocks := [yawBlock 8 (30 + 1 / 2 ^ 19)] }).1.blocks = [yawBlock 8 30] := by
    decide +kernel
  rw [hkept]
  intro h
  have hconvars := (forall₂_cons.mp h).1.convars (str "tas_strafe_yaw")
  revert hconvars
  decide +kernel

/-! ## The frame reported -/

/-- What is executed up to a frame. -/
def executedUpTo (ostream : F → Str) (blocks : List (FrameBlock F)) (frame : Int) :
    List (Int × Str) :=
  (blocks.filter fun b => decide (b.frame ≤ frame)).map (executed ostream)

/-- When the frame reported is sound: a script without blocks gets no block before frame 0, and if
blocks are only cut off from the end of a script, then they are all on its last frame. -/
structure Reportable (ostream : F → Str) (old new : List (FrameBlock F)) : Prop where
  nonneg : old = [] → ∀ b ∈ new, 0 ≤ b.frame
  cutOff : LookAlike ostream old new →
    ∀ b ∈ old.drop new.length, lastBlockFrame old ≤ b.frame

theorem executedUpTo_append (a b : List (FrameBlock F)) (frame : Int) :
    executedUpTo ostream (a ++ b) frame =
      executedUpTo ostream a frame ++ executedUpTo ostream b frame := by
  unfold executedUpTo
  rw [filter_append, map_append]

variable {frame : Int}

theorem executedUpTo_eq_nil_iff {blocks : List (FrameBlock F)} :
    executedUpTo ostream blocks frame = [] ↔ ∀ b ∈ blocks, frame < b.frame := by
  unfold executedUpTo
  rw [map_eq_nil_iff, filter_eq_nil_iff]
  simp only [decide_eq_true_eq, not_le]

theorem forall_executedUpTo_eq_nil_iff {blocks : List (FrameBlock F)} {first : Int} :
    (∀ g < first, executedUpTo ostream blocks g = []) ↔ ∀ b ∈ blocks, first ≤ b.frame := by
  constructor
  · intro h b hb
    by_contra hlt
    exact lt_irrefl _ (executedUpTo_eq_nil_iff.mp (h b.frame (not_le.mp hlt)) b hb)
  · exact fun h g hg => executedUpTo_eq_nil_iff.mpr fun b hb => hg.trans_le (h b hb)

theorem LookAlike.executedUpTo_eq (h : LookAlike ostream old new) (hlen : old.length = new.length)
    (frame : Int) : executedUpTo ostream old frame = executedUpTo ostream new frame := by
  have hfilter (blocks : List (FrameBlock F)) : executedUpTo ostream blocks frame =
      (blocks.map (executed ostream)).filter fun p => decide (p.1 ≤ frame) := by
    unfold executedUpTo
    rw [filter_map]
    rfl
  rw [hfilter, hfilter, h.map_executed hlen]

theorem LookAlike.take (h : LookAlike ostream old new) (n : ℕ) :
    LookAlike ostream (old.take n) (new.take n) := by
  intro p hp
  rw [zip_eq_zipWith, ← take_zipWith] at hp
  exact h p (mem_of_mem_take hp)

theorem LookAlike.forall_executedUpTo_iff {short long : List (FrameBlock F)}
    (h : LookAlike ostream short long) (hlen : short.length ≤ long.length) {first : Int} :
    (∀ g < first, executedUpTo ostream short g = executedUpTo ostream long g) ↔
      ∀ b ∈ long.drop short.length, first ≤ b.frame := by
  have hshort : LookAlike ostream short (long.take short.length) := by
    have htake := h.take short.length
    rwa [take_length] at htake
  have hsplit (g : Int) : executedUpTo ostream long g = executedUpTo ostream short g ++
      executedUpTo ostream (long.drop short.length) g := by
    conv_lhs => rw [← take_append_drop short.length long]
    rw [executedUpTo_append, hshort.executedUpTo_eq (by rw [length_take]; omega)]
  rw [← @forall_executedUpTo_eq_nil_iff F ostream]
  refine forall₂_congr fun g _ => ?_
  rw [hsplit g, self_eq_append_right]

theorem LookAlike.symm (h : LookAlike ostream old new) : LookAlike ostream new old := by
  intro p hp
  have hswap : (p.2, p.1) ∈ old.zip new := by
    rw [← zip_swap] at hp
    obtain ⟨q, hq, rfl⟩ := mem_map.mp hp
    exact hq
  exact sameBlock_iff.mpr (sameBlock_iff.mp (h _ hswap)).symm

theorem LookAlike.last_frame_le (h : LookAlike ostream old new) (hlen : old.length ≤ new.length)
    (hnew : KeySorted FrameBlock.frame new) (hne : old ≠ []) :
    ∀ b ∈ new.drop old.length, lastBlockFrame old ≤ b.frame := by
  intro b hb
  have hlast : lastBlockFrame old = (old.getLast hne).frame := by
    unfold lastBlockFrame
    rw [getLast?_eq_getLast_of_ne_nil hne]
  -- the frame of the last old block is also one of the new script
  have hmem : (old.getLast hne).frame ∈ (new.take old.length).map frame := by
    have htake := h.take old.length
    rw [take_length] at htake
    have hmap := htake.map_executed (by rw [length_take]; omega)
    have hframes := congrArg (map Prod.fst) hmap
    rw [map_map, map_map] at hframes
    rw [show frame = Prod.fst ∘ executed ostream from rfl, ← hframes]
    exact mem_map_of_mem (getLast_mem hne)
  obtain ⟨c, hc, hceq⟩ := mem_map.mp hmem
  rw [hlast, ← hceq]
  rw [← take_append_drop old.length new] at hnew
  exact (keySorted_append.mp hnew).2.2 c hc b hb

theorem executedUpTo_cons_eq_nil {rest : List (FrameBlock F)}
    (hsorted : KeySorted FrameBlock.frame (a :: rest)) (hlt : frame < a.frame) :
    executedUpTo ostream (a :: rest) frame = [] := by
  refine executedUpTo_eq_nil_iff.mpr fun b hb => ?_
  rcases mem_cons.mp hb with rfl | hb
  · exact hlt
  · exact hlt.trans_le ((pairwise_cons.mp hsorted).1 b hb)

theorem StoppedAt.executedUpTo_eq
    (h : StoppedAt ostream old new keptOld keptNew a b restOld restNew)
    (hold : KeySorted FrameBlock.frame old) (hnew : KeySorted FrameBlock.frame new)
    (hframe : frame < min a.frame b.frame) :
    executedUpTo ostream old frame = executedUpTo ostream new frame := by
  rw [h.old_eq] at hold ⊢
  rw [h.new_eq] at hnew ⊢
  rw [executedUpTo_append, executedUpTo_append,
    executedUpTo_cons_eq_nil (keySorted_append.mp hold).2.1 (lt_min_iff.mp hframe).1,
    executedUpTo_cons_eq_nil (keySorted_append.mp hnew).2.1 (lt_min_iff.mp hframe).2,
    h.alike.executedUpTo_eq h.length_eq]

theorem StoppedAt.not_lookAlike (h : StoppedAt ostream old new keptOld keptNew a b restOld restNew) :
    ¬ LookAlike ostream old new := by
  intro halike
  have hmem : (a, b) ∈ old.zip new := by
    rw [h.old_eq, h.new_eq, zip_append h.length_eq]
    exact mem_append_right _ mem_cons_self
  exact absurd (halike (a, b) hmem) (by rw [h.differ]; exact nofun)

/-- The same commands are executed before the frame that the comparison reports, exactly under
the condition above. -/
theorem compareBlocks_sound_iff (hold : KeySorted FrameBlock.frame old)
    (hnew : KeySorted FrameBlock.frame new) :
    (∀ g < (compareBlocks ostream (lastBlockFrame old) old new).2,
        executedUpTo ostream old g = executedUpTo ostream new g) ↔
      Reportable ostream old new := by
  obtain ⟨halike, heq⟩ | ⟨keptOld, keptNew, a, b, restOld, restNew, hstop, heq⟩ :=
    compareBlocks_cases ostream (lastBlockFrame old) old new
  · rw [heq]
    rcases le_total old.length new.length with hlen | hlen
    · -- the new script goes on behind the old one
      have hdrop := drop_eq_nil_of_le hlen
      rw [halike.forall_executedUpTo_iff hlen]
      refine ⟨fun h => ⟨fun hnil => ?_, by rw [hdrop]; exact fun _ => nofun⟩, fun h => ?_⟩
      · rw [hnil] at h
        exact h
      · by_cases hne : old = []
        · rw [hne]
          exact h.nonneg hne
        · exact halike.last_frame_le hlen hnew hne
    · -- the new script ends within the old one
      have hsymm : (∀ g < lastBlockFrame old,
          executedUpTo ostream old g = executedUpTo ostream new g) ↔
          ∀ g < lastBlockFrame old,
            executedUpTo ostream new g = executedUpTo ostream old g :=
        forall₂_congr fun _ _ => eq_comm
      rw [hsymm, halike.symm.forall_executedUpTo_iff hlen]
      refine ⟨fun h => ⟨fun hnil => ?_, fun _ => h⟩, fun h => h.cutOff halike⟩
      have hnew : new = [] := length_eq_zero_iff.mp (by rw [hnil] at hlen; simpa using hlen)
      rw [hnew]
      exact nofun
  · rw [heq]
    refine ⟨fun _ => ⟨fun hnil => ?_, fun h => absurd h hstop.not_lookAlike⟩,
      fun _ g hg => hstop.executedUpTo_eq hold hnew hg⟩
    exact absurd (hnil.symm.trans hstop.old_eq) (by simp)

/-- **No stale savestate is kept** when the script is updated. -/
theorem savestates_kept_describe {γ : Type} (describes : γ → List (Int × Str) → Prop)
    (old new : TASScript F) (hold : KeySorted FrameBlock.frame old.blocks)
    (hnew : KeySorted FrameBlock.frame new.blocks)
    (hreport : Reportable ostream old.blocks new.blocks) (m : Savestates γ)
    (hm : ∀ e ∈ m.savestateMap.entries,
      describes e.2.snapshot (executedUpTo ostream old.blocks (e.1 - 1))) :
    ∀ e ∈ (m.scriptUpdated (old.applyChanges ostream new).2).savestateMap.entries,
      describes e.2.snapshot (executedUpTo ostream new.blocks (e.1 - 1)) := by
  intro e he
  obtain ⟨hmem, hle⟩ := SortedMap.mem_eraseAbove.mp he
  have hlt : e.1 - 1 < (old.applyChanges ostream new).2 := by omega
  rw [← (compareBlocks_sound_iff hold hnew).mpr hreport (e.1 - 1) hlt]
  exact hm e hmem

/-- The same commands are executed before the frame that `ApplyChanges` reports, exactly if the
script had blocks or gets none before frame 0, and blocks that are only cut off from its end are all
on its last frame. -/
theorem firstChangedFrame_sound_iff (ostream : F → Str) (old new : TASScript F)
    (hold : KeySorted FrameBlock.frame old.blocks) (hnew : KeySorted FrameBlock.frame new.blocks) :
    (∀ g < (old.applyChanges ostream new).2,
        executedUpTo ostream old.blocks g = executedUpTo ostream new.blocks g) ↔
      Reportable ostream old.blocks new.blocks :=
  compareBlocks_sound_iff hold hnew

/-- A script with blocks on the frames given that turns by one degree each frame. -/
def turning (frames : List Int) : TASScript ℚ :=
  { blocks := frames.map fun frame => yawBlock frame (30 + frame) }

instance (frames : List Int) : Decidable (KeySorted FrameBlock.frame (turning frames).blocks) :=
  inferInstanceAs (Decidable (List.Pairwise _ _))

/-- Changing the last block and adding one behind it is reported soundly. -/
theorem firstChangedFrame_sound_turning :
    KeySorted FrameBlock.frame (turning [1, 5, 10]).blocks ∧
      KeySorted FrameBlock.frame (turning [1, 5, 12, 14]).blocks ∧
      ∀ g < ((turning [1, 5, 10]).applyChanges sixDigits (turning [1, 5, 12, 14])).2,
        executedUpTo sixDigits (turning [1, 5, 10]).blocks g =
          executedUpTo sixDigits (turning [1, 5, 12, 14]).blocks g := by
  have hold : KeySorted frame (turning [1, 5, 10]).blocks := by decide +kernel
  have hnew : KeySorted frame (turning [1, 5, 12, 14]).blocks := by decide +kernel
  refine ⟨hold, hnew, (firstChangedFrame_sound_iff sixDigits _ _ hold hnew).mpr
    ⟨nofun, fun h => ?_⟩⟩
  unfold LookAlike at h
  revert h
  decide +kernel

/-- A savestate of frame 6. -/
theorem savestates_kept_describe_turning :
    let old := turning [1, 5, 10]
    let new := turning [1, 5, 12, 14]
    let m : Savestates (List (Int × Str)) :=
      { savestateMap := SortedMap.empty.put 6 ⟨6, 0, [], executedUpTo sixDigits old.blocks 5⟩ }
    ∀ e ∈ (m.scriptUpdated (old.applyChanges sixDigits new).2).savestateMap.entries,
      e.2.snapshot = executedUpTo sixDigits new.blocks (e.1 - 1) := by
  intro old new m
  refine savestates_kept_describe (· = ·) old new (by decide +kernel) (by decide +kernel)
    ⟨nofun, fun h => ?_⟩ m (by decide +kernel)
  unfold LookAlike at h
  revert h
  decide +kernel

/-- Blocks on frames 5 and 10 are cut off; frame 10 is reported, but frame 5 has changed. -/
theorem cut_off_reported_late :
    KeySorted FrameBlock.frame (turning [1, 5, 10]).blocks ∧
      KeySorted FrameBlock.frame (turning [1]).blocks ∧
      7 < ((turning [1, 5, 10]).applyChanges sixDigits (turning [1])).2 ∧
      executedUpTo sixDigits (turning [1, 5, 10]).blocks 7 ≠
        executedUpTo sixDigits (turning [1]).blocks 7 := by
  decide +kernel

end TASQuake.Analysis.ScriptUpdate
