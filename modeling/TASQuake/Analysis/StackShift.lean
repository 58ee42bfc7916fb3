import TASQuake.Analysis.BlockShifts

/-!
# Shifting the stack

`tas_edit_shift_stack` takes the blocks after the current frame off the end of the vector and puts
them back, shifted, with `Shift_Block`, which drops a block whose frame is taken.  A block always
goes in between the blocks that stayed and those put back before it, so none is dropped.
-/

namespace TASQuake.Analysis.StackShift

open Lib PlaybackInfo BlockShifts FrameBlock Session List

variable {F : Type}

/-- The cases in which the command must not change anything: no block lies after the current frame,
or some block after it would not stay after it. -/
def Refused (self : PlaybackInfo F) (frames : Int) : Prop :=
  (∀ b ∈ self.currentScript.blocks, b.frame ≤ self.currentFrame) ∨
    ∃ b ∈ self.currentScript.blocks, self.currentFrame < b.frame ∧
      b.frame + frames ≤ self.currentFrame

instance (self : PlaybackInfo F) (frames : Int) : Decidable (Refused self frames) :=
  inferInstanceAs (Decidable (_ ∨ _))

/-- The blocks that the command is to leave. -/
def shiftedStack (self : PlaybackInfo F) (frames : Int) : List (FrameBlock F) :=
  self.currentScript.blocks.map fun b =>
    if self.currentFrame < b.frame then b.shiftFrame frames else b

/-! ## Splitting the script at the current frame -/

/-- The blocks up to the current frame and those after it. -/
structure Split (info : PlaybackInfo F) (kept later : List (FrameBlock F)) : Prop where
  blocks : info.currentScript.blocks = kept ++ later
  le : ∀ b ∈ kept, b.frame ≤ info.currentFrame
  gt : ∀ b ∈ later, info.currentFrame < b.frame

theorem exists_split {self : PlaybackInfo F} (hs : Increasing self.currentScript.blocks) :
    ∃ kept later, Split self kept later := by
  have hsorted : KeySorted frame self.currentScript.blocks :=
    hs.strict.imp fun hab => hab.le
  refine ⟨_, _, (hsorted.below_append_filter (self.currentFrame + 1)).symm, ?_, ?_⟩
  · intro b hb
    have hlt := of_decide_eq_true (mem_filter.mp hb).2
    omega
  · intro b hb
    have hle := of_decide_eq_true (mem_filter.mp hb).2
    omega

section Split

variable {self : PlaybackInfo F} {kept later : List (FrameBlock F)} (h : Split self kept later)

include h

theorem Split.takeWhile_reverse :
    kept.reverse.takeWhile (fun b => decide (self.currentFrame < b.frame)) = [] ∧
      kept.reverse.dropWhile (fun b => decide (self.currentFrame < b.frame)) = kept.reverse := by
  cases hk : kept.reverse with
  | nil => exact ⟨rfl, rfl⟩
  | cons b rest =>
    have hb := h.le b (mem_reverse.mp (hk ▸ mem_cons_self))
    exact ⟨takeWhile_cons_of_neg (by simpa using hb),
      dropWhile_cons_of_neg (by simpa using hb)⟩

theorem Split.stackToShift_eq : self.stackToShift = later.reverse := by
  have hall : ∀ b ∈ later.reverse, decide (self.currentFrame < b.frame) = true := fun b hb =>
    decide_eq_true (h.gt b (mem_reverse.mp hb))
  unfold PlaybackInfo.stackToShift
  rw [h.blocks, reverse_append, takeWhile_append_of_pos hall, h.takeWhile_reverse.1, append_nil]

theorem Split.stackToKeep_eq : self.stackToKeep = kept := by
  have hall : ∀ b ∈ later.reverse, decide (self.currentFrame < b.frame) = true := fun b hb =>
    decide_eq_true (h.gt b (mem_reverse.mp hb))
  unfold PlaybackInfo.stackToKeep
  rw [h.blocks, reverse_append, dropWhile_append_of_pos hall, h.takeWhile_reverse.2,
    reverse_reverse]

theorem Split.getLastFrame_le_iff (hcur : 0 ≤ self.currentFrame) :
    self.getLastFrame ≤ self.currentFrame ↔ later = [] := by
  unfold PlaybackInfo.getLastFrame
  constructor
  · intro hle
    by_contra hne
    have hlast : self.currentScript.blocks.getLast? = some (later.getLast hne) := by
      rw [h.blocks, getLast?_append_of_ne_nil _ hne, getLast?_eq_some_getLast hne]
    have hgt := h.gt _ (getLast_mem hne)
    rw [hlast] at hle
    exact absurd hle (not_le.mpr hgt)
  · rintro rfl
    have hblocks := h.blocks
    rw [append_nil] at hblocks
    cases hb : self.currentScript.blocks.getLast? with
    | none => exact hcur
    | some b => exact h.le b (hblocks ▸ mem_of_getLast? hb)

theorem Split.refused_iff (frames : Int) :
    Refused self frames ↔ later = [] ∨ ∃ b ∈ later, b.frame + frames ≤ self.currentFrame := by
  unfold Refused
  rw [h.blocks]
  apply or_congr
  · constructor
    · intro hall
      refine eq_nil_iff_forall_not_mem.mpr fun b hb => ?_
      have hgt := h.gt b hb
      have hle := hall b (mem_append_right _ hb)
      omega
    · rintro rfl b hb
      rw [append_nil] at hb
      exact h.le b hb
  · constructor
    · rintro ⟨b, hb, hgt, hle⟩
      rcases mem_append.mp hb with hb | hb
      · exact absurd hgt (not_lt.mpr (h.le b hb))
      · exact ⟨b, hb, hle⟩
    · rintro ⟨b, hb, hle⟩
      exact ⟨b, mem_append_right _ hb, h.gt b hb, hle⟩

theorem Split.shiftedStack_eq (frames : Int) :
    shiftedStack self frames = kept ++ later.map (shiftFrame frames) := by
  unfold shiftedStack
  rw [h.blocks, map_append]
  congr 1
  · conv_rhs => rw [← map_id kept]
    refine map_congr_left fun b hb => ?_
    rw [if_neg (not_lt.mpr (h.le b hb))]
    rfl
  · refine map_congr_left fun b hb => ?_
    rw [if_pos (h.gt b hb)]

end Split

/-! ## Putting the blocks back -/

theorem insertShifted_between {before after : List (FrameBlock F)} {b : FrameBlock F}
    (hbefore : ∀ a ∈ before, a.frame < b.frame) (hafter : ∀ c ∈ after, b.frame < c.frame) :
    insertShifted b (before ++ after) = before ++ b :: after := by
  induction before with
  | nil =>
    cases after with
    | nil => rfl
    | cons c after =>
      have hlt := hafter c mem_cons_self
      show insertShifted b (c :: after) = _
      unfold insertShifted
      rw [if_neg (by omega), if_pos hlt]
      rfl
  | cons a before ih =>
    have hlt := hbefore a mem_cons_self
    rw [cons_append, insertShifted, if_neg (by omega), if_neg (by omega),
      ih fun a' ha' => hbefore a' (mem_cons_of_mem _ ha')]
    rfl

/-- The third loop.  Induction on the blocks that were taken off: the last one goes back first, so
that the blocks after `b` are in place when `b` goes in. -/
theorem foldl_shiftBlock_eq (now : ℕ) (self : PlaybackInfo F) {kept moved : List (FrameBlock F)}
    (hmoved : moved.Pairwise fun a b => a.frame < b.frame)
    (hkept : ∀ a ∈ kept, ∀ b ∈ moved, a.frame < b.frame) (hne : moved ≠ []) :
    moved.reverse.foldl (shiftBlock now) (self.withBlocks kept) =
      { self.withBlocks (kept ++ moved) with lastEdited := now } := by
  induction moved with
  | nil => exact absurd rfl hne
  | cons b rest ih =>
    obtain ⟨hb, hrest⟩ := pairwise_cons.mp hmoved
    have hinsert := insertShifted_between (fun a ha => hkept a ha b mem_cons_self) hb
    rw [reverse_cons, foldl_append]
    cases rest with
    | nil =>
      rw [append_nil] at hinsert
      show shiftBlock now (self.withBlocks kept) b = _
      unfold shiftBlock PlaybackInfo.withBlocks
      dsimp only
      rw [hinsert]
    | cons c rest =>
      rw [ih hrest (fun a ha d hd => hkept a ha d (mem_cons_of_mem _ hd))
        (cons_ne_nil c rest)]
      show shiftBlock now { self.withBlocks (kept ++ c :: rest) with lastEdited := now } b = _
      unfold shiftBlock PlaybackInfo.withBlocks
      dsimp only
      rw [hinsert]

/-! ## The command -/

theorem cannotShift_iff (self : PlaybackInfo F) (hcur : 0 ≤ self.currentFrame) (frames : Int)
    (b : FrameBlock F) :
    self.cannotShift frames b = true ↔ b.frame + frames ≤ self.currentFrame := by
  unfold PlaybackInfo.cannotShift lowestFrame
  simp only [Bool.or_eq_true, decide_eq_true_eq]
  omega

theorem editShiftStack_refused {self : PlaybackInfo F} (hs : Increasing self.currentScript.blocks)
    (hcur : 0 ≤ self.currentFrame) (now : ℕ) {frames : Int} (h : Refused self frames) :
    ∃ e, self.editShiftStack now frames = .error e := by
  obtain ⟨kept, later, hsplit⟩ := exists_split hs
  unfold PlaybackInfo.editShiftStack
  by_cases hnil : later = []
  · rw [if_pos ((hsplit.getLastFrame_le_iff hcur).mpr hnil)]
    exact ⟨_, rfl⟩
  · rw [if_neg fun hle => hnil ((hsplit.getLastFrame_le_iff hcur).mp hle), hsplit.stackToShift_eq]
    obtain ⟨b, hb, hle⟩ := ((hsplit.refused_iff frames).mp h).resolve_left hnil
    cases hfind : later.reverse.find? (self.cannotShift frames) with
    | some block => exact ⟨_, rfl⟩
    | none =>
      have hcan := find?_eq_none.mp hfind b (mem_reverse.mpr hb)
      exact absurd ((cannotShift_iff self hcur frames b).mpr hle) hcan

theorem editShiftStack_accepted {self : PlaybackInfo F} (hs : Increasing self.currentScript.blocks)
    (hcur : 0 ≤ self.currentFrame) (now : ℕ) {frames : Int} (h : ¬ Refused self frames) :
    self.editShiftStack now frames =
        .ok { self.withBlocks (shiftedStack self frames) with lastEdited := now } ∧
      Increasing (shiftedStack self frames) := by
  obtain ⟨kept, later, hsplit⟩ := exists_split hs
  rw [hsplit.refused_iff frames] at h
  push Not at h
  obtain ⟨hne, hroom⟩ := h
  have hstrict := hs.strict
  have hnonneg := hs.nonneg
  rw [hsplit.blocks] at hstrict hnonneg
  obtain ⟨hkept, hlater, -⟩ := pairwise_append.mp hstrict
  have hmoved : (later.map (shiftFrame frames)).Pairwise
      fun a b => a.frame < b.frame := by
    rw [pairwise_map]
    refine hlater.imp fun {a b} hab => ?_
    show a.frame + frames < b.frame + frames
    omega
  have hcross : ∀ a ∈ kept, ∀ b ∈ later.map (shiftFrame frames),
      a.frame < b.frame := by
    intro a ha b hb
    obtain ⟨c, hc, rfl⟩ := mem_map.mp hb
    have hle := hsplit.le a ha
    have hlt := hroom c hc
    show a.frame < c.frame + frames
    omega
  rw [hsplit.shiftedStack_eq]
  constructor
  · have hcheck : later.reverse.find? (self.cannotShift frames) = none := by
      refine find?_eq_none.mpr fun b hb hcannot => ?_
      have hlt := hroom b (mem_reverse.mp hb)
      have hle := (cannotShift_iff self hcur frames b).mp hcannot
      omega
    unfold PlaybackInfo.editShiftStack
    rw [if_neg fun hle => hne ((hsplit.getLastFrame_le_iff hcur).mp hle), hsplit.stackToShift_eq,
      hcheck]
    rw [hsplit.stackToKeep_eq, map_reverse,
      foldl_shiftBlock_eq now self hmoved hcross (by simpa using hne)]
  · constructor
    · exact pairwise_append.mpr ⟨hkept, hmoved, hcross⟩
    · intro b hb
      rcases mem_append.mp hb with hb | hb
      · exact hnonneg b (mem_append_left _ hb)
      · obtain ⟨c, hc, rfl⟩ := mem_map.mp hb
        have hlt := hroom c hc
        show 0 ≤ c.frame + frames
        omega

/-- **`tas_edit_shift_stack` is all or nothing.** On a script with increasing frames: if no block
lies after the current frame or some shifted frame would not be after it, the game is left as it
was; otherwise every block after the current frame is moved by the argument, in order, and nothing
else changes but the time of the last edit. -/
theorem shift_stack_all_or_nothing (s : Session F) (hs : Increasing s.blocks)
    (hcur : 0 ≤ s.playback.currentFrame) (now : ℕ) (frames : Int) :
    (Refused s.playback frames →
        s.applyEdit (s.playback.editShiftStack now frames) = s) ∧
      (¬ Refused s.playback frames →
        s.applyEdit (s.playback.editShiftStack now frames) =
            { s with
              playback :=
                { s.playback.withBlocks (shiftedStack s.playback frames) with
                  lastEdited := now } } ∧
          Increasing (shiftedStack s.playback frames)) := by
  constructor
  · intro hrefused
    obtain ⟨e, he⟩ := editShiftStack_refused hs hcur now hrefused
    rw [he]
    rfl
  · intro haccepted
    obtain ⟨hok, hinc⟩ := editShiftStack_accepted hs hcur now haccepted
    rw [hok]
    exact ⟨rfl, hinc⟩

/-- **Shifts of the stack add up.** After a shift that is not refused, a second one is refused
exactly if the shift by the sum is, and otherwise leaves what that shift leaves. -/
theorem shift_stack_add {self : PlaybackInfo F} (hs : Increasing self.currentScript.blocks)
    (hcur : 0 ≤ self.currentFrame) (now now' : ℕ) {a : Int} (ha : ¬ Refused self a) (b : Int) :
    ∃ info, self.editShiftStack now a = .ok info ∧
      if Refused self (a + b) then ∃ e, info.editShiftStack now' b = .error e
      else info.editShiftStack now' b = self.editShiftStack now' (a + b) := by
  obtain ⟨hok, hinc⟩ := editShiftStack_accepted hs hcur now ha
  obtain ⟨kept, later, hsplit⟩ := exists_split hs
  set info : PlaybackInfo F := { self.withBlocks (shiftedStack self a) with lastEdited := now }
  have hinc' : Increasing info.currentScript.blocks := hinc
  have hcur' : 0 ≤ info.currentFrame := hcur
  -- the current frame splits the shifted blocks where it split the blocks
  have hsplit' : Split info kept (later.map (shiftFrame a)) := by
    refine ⟨hsplit.shiftedStack_eq a, hsplit.le, forall_mem_map.mpr fun c hc => ?_⟩
    by_contra hle
    exact ha ((hsplit.refused_iff a).mpr (.inr ⟨c, hc, not_lt.mp hle⟩))
  have hrefused : Refused info b ↔ Refused self (a + b) := by
    rw [hsplit'.refused_iff, hsplit.refused_iff, map_eq_nil_iff]
    simp [shiftFrame, add_assoc, info, PlaybackInfo.withBlocks]
  have hstack : shiftedStack info b = shiftedStack self (a + b) := by
    rw [hsplit'.shiftedStack_eq, hsplit.shiftedStack_eq, map_map]
    exact congrArg (kept ++ ·) (map_congr_left fun c _ => DragUndo.shiftFrame_shiftFrame c a b)
  refine ⟨info, hok, ?_⟩
  split
  · next hsum => exact editShiftStack_refused hinc' hcur' now' (hrefused.mpr hsum)
  · next hsum =>
    rw [(editShiftStack_accepted hs hcur now' hsum).1,
      (editShiftStack_accepted hinc' hcur' now' (mt hrefused.mp hsum)).1, hstack]
    rfl

/-- A game on frame 5, with blocks on the frames 0, 8, 9 and 20. -/
def fourBlocks : Session Int :=
  { init exampleHost with
    playback :=
      { currentFrame := 5
        currentScript := { blocks := [0, 8, 9, 20].map fun f => { frame := f } } } }

/-- Moved down by two frames, further than the gap between the second and the third block, all
blocks are there; by three, none moves. -/
theorem shift_stack_all_or_nothing_fourBlocks :
    (fourBlocks.applyEdit (fourBlocks.playback.editShiftStack 1 (-2))).blocks.map frame =
        [0, 6, 7, 18] ∧
      fourBlocks.applyEdit (fourBlocks.playback.editShiftStack 1 (-3)) = fourBlocks := by
  have hs : Increasing fourBlocks.blocks := by
    constructor
    · simp [fourBlocks, blocks]
    · simp [fourBlocks, blocks]
  refine ⟨?_, ?_⟩
  · rw [((shift_stack_all_or_nothing fourBlocks hs (by decide) 1 (-2)).2 (by decide)).1]
    decide
  · exact (shift_stack_all_or_nothing fourBlocks hs (by decide) 1 (-3)).1 (by decide)

/-- Up by three frames and down by five is down by two. -/
theorem shift_stack_add_fourBlocks :
    ∃ info, fourBlocks.playback.editShiftStack 1 3 = .ok info ∧
      info.editShiftStack 2 (-5) = fourBlocks.playback.editShiftStack 2 (-2) := by
  have hs : Increasing fourBlocks.playback.currentScript.blocks := by
    constructor <;> simp [fourBlocks]
  obtain ⟨info, hok, hsecond⟩ := shift_stack_add hs (by decide) 1 2 (a := 3) (by decide) (-5)
  exact ⟨info, hok, (if_neg (by decide)).mp hsecond⟩

end TASQuake.Analysis.StackShift
