import TASQuake.Lib.Run
import TASQuake.Interface.ScriptMeaning
import TASQuake.Model.EditBlocks

/-!
# Editing keeps the script ordered

Every editing operation keeps the frames non-negative and non-decreasing: it removes blocks or
rewrites their contents (`Ordered.sublist`, `Ordered.of_frames_eq`), inserts a block at a position
found by a scan (`Ordered.insertIdx_findIdx`), or moves blocks by an amount clamped at their
neighbours (`ordered_shiftBlocks`).
-/

namespace TASQuake

open Lib Ordered TASScript PlaybackInfo FrameBlock List

variable {F : Type}

/-! ## Removing and rewriting blocks -/

theorem Ordered.nil : Ordered ([] : List (FrameBlock F)) :=
  ⟨List.Pairwise.nil, fun _ h => absurd h not_mem_nil⟩

variable {l l' : List (FrameBlock F)}

theorem Ordered.sublist (h : Ordered l) (hs : l'.Sublist l) : Ordered l' :=
  ⟨h.sorted.sublist hs, fun b hb => h.nonneg b (hs.subset hb)⟩

theorem Ordered.of_frames_eq (h : Ordered l) (hf : l'.map frame = l.map frame) :
    Ordered l' := by
  refine ⟨keySorted_of_map_eq h.sorted hf, ?_⟩
  intro b hb
  have hb' : b.frame ∈ l.map frame := by
    rw [← hf]
    exact mem_map_of_mem hb
  obtain ⟨c, hc, hcb⟩ := mem_map.mp hb'
  rw [← hcb]
  exact h.nonneg c hc

theorem Ordered.map (h : Ordered l) {f : FrameBlock F → FrameBlock F}
    (hf : ∀ b, (f b).frame = b.frame) : Ordered (l.map f) := by
  apply h.of_frames_eq
  rw [map_map]
  exact map_congr_left fun b _ => hf b

theorem Ordered.modify (h : Ordered l) {f : FrameBlock F → FrameBlock F}
    (hf : ∀ b, (f b).frame = b.frame) (i : ℕ) : Ordered (l.modify i f) :=
  h.of_frames_eq (map_modify_of_key frame f hf i l)

/-! ## Inserting a block -/

theorem Ordered.insertIdx_findIdx (h : Ordered l) {p : FrameBlock F → Bool} {b : FrameBlock F}
    (hb : 0 ≤ b.frame) (hpos : ∀ c, p c = true → b.frame ≤ c.frame)
    (hneg : ∀ c, p c = false → c.frame ≤ b.frame) : Ordered (l.insertIdx (l.findIdx p) b) := by
  refine ⟨h.sorted.insertIdx_findIdx hpos hneg, ?_⟩
  intro c hc
  rcases eq_or_mem_of_mem_insertIdx hc with rfl | hc
  · exact hb
  · exact h.nonneg c hc

theorem Ordered.append (h : Ordered l) (h' : Ordered l')
    (hle : ∀ a ∈ l, ∀ b ∈ l', a.frame ≤ b.frame) : Ordered (l ++ l') := by
  refine ⟨keySorted_append.mpr ⟨h.sorted, h'.sorted, hle⟩, ?_⟩
  intro b hb
  rcases mem_append.mp hb with hb | hb
  · exact h.nonneg b hb
  · exact h'.nonneg b hb

/-! ## The operations of `TASScript` -/

namespace TASScript

/-- A script whose blocks are ordered. -/
def WellOrdered (self : TASScript F) : Prop := Ordered self.blocks

variable {frame : Int} {self : TASScript F}

section

variable (h : self.WellOrdered)
include h

theorem wellOrdered_getBlockForInsertion (hf : 0 ≤ frame) :
    (self.getBlockForInsertion frame).1.WellOrdered := by
  rcases self.getBlockForInsertion_cases frame with ⟨b, -, -, heq⟩ | ⟨-, heq⟩
  · rw [heq]
    exact h
  · rw [heq]
    refine insertIdx_findIdx h hf ?_ ?_
    · intro c hc
      exact of_decide_eq_true hc
    · intro c hc
      exact (not_le.mp (of_decide_eq_false hc)).le

theorem wellOrdered_modifyBlock (i : ℕ) {f : FrameBlock F → FrameBlock F}
    (hf : ∀ b, (f b).frame = b.frame) : (self.modifyBlock i f).WellOrdered :=
  modify h hf i

theorem wellOrdered_addCvar (cmd : Str) (value : F) (hf : 0 ≤ frame) :
    (self.addCvar cmd value frame).WellOrdered :=
  wellOrdered_modifyBlock (wellOrdered_getBlockForInsertion h hf) _ fun _ => rfl

theorem wellOrdered_addToggle (cmd : Str) (state : Bool) (hf : 0 ≤ frame) :
    (self.addToggle cmd state frame).WellOrdered :=
  wellOrdered_modifyBlock (wellOrdered_getBlockForInsertion h hf) _ fun _ => rfl

theorem wellOrdered_addCommand (cmd : Str) (hf : 0 ≤ frame) :
    (self.addCommand cmd frame).WellOrdered :=
  wellOrdered_modifyBlock (wellOrdered_getBlockForInsertion h hf) _ fun _ => rfl

theorem wellOrdered_prune (minFrame maxFrame : Int) :
    (self.prune minFrame maxFrame).WellOrdered :=
  sublist h filter_sublist

theorem wellOrdered_pruneFrom (minFrame : Int) :
    (self.pruneFrom minFrame).WellOrdered :=
  sublist h filter_sublist

theorem wellOrdered_removeBlocksAfterFrame (frame : Int) :
    (self.removeBlocksAfterFrame frame).WellOrdered :=
  sublist h filter_sublist

theorem wellOrdered_removeCvarsFromRange (name : Str)
    (minFrame maxFrame : Int) : (self.removeCvarsFromRange name minFrame maxFrame).WellOrdered := by
  apply map h
  intro b
  split <;> rfl

theorem wellOrdered_removeTogglesFromRange (name : Str) (minFrame maxFrame : Int) :
    (self.removeTogglesFromRange name minFrame maxFrame).WellOrdered := by
  apply map h
  intro b
  split <;> rfl

theorem wellOrdered_addScript {script : TASScript F}
    (hs : script.WellOrdered) (hf : 0 ≤ frame) : (self.addScript script frame).WellOrdered := by
  have hshift : Ordered (script.blocks.map (shiftFrame frame)) := by
    constructor
    · have hsorted := hs.sorted
      unfold KeySorted at hsorted ⊢
      rw [pairwise_map]
      refine hsorted.imp fun {a b} hab => ?_
      show a.frame + frame ≤ b.frame + frame
      omega
    · intro b hb
      obtain ⟨c, hc, rfl⟩ := mem_map.mp hb
      have h0 := hs.nonneg c hc
      show 0 ≤ c.frame + frame
      omega
  refine append (sublist h (takeWhile_sublist _))
    (hshift.sublist filter_sublist) ?_
  intro a ha b hb
  have ha' : a.frame < frame := by
    have hp := mem_takeWhile_imp ha
    exact of_decide_eq_true hp
  obtain ⟨c, hc, rfl⟩ := mem_map.mp (mem_of_mem_filter hb)
  have h0 := hs.nonneg c hc
  show a.frame ≤ c.frame + frame
  omega

theorem wellOrdered_writeShot (pitch yaw : F) (frame turnFrames : Int) :
    (self.writeShot pitch yaw frame turnFrames).WellOrdered := by
  have hturn : 0 ≤ turnFrame frame turnFrames := by
    unfold turnFrame
    omega
  have hshoot : 0 ≤ shootFrame frame := by
    unfold shootFrame
    omega
  have hoff : 0 ≤ shootOffFrame frame := by
    unfold shootOffFrame
    omega
  have h₁ := wellOrdered_getBlockForInsertion h hturn
  have h₂ := wellOrdered_getBlockForInsertion h₁ hshoot
  have h₃ := wellOrdered_getBlockForInsertion h₂ hoff
  unfold writeShot setConvarAt setToggleAt
  refine wellOrdered_modifyBlock (wellOrdered_modifyBlock (wellOrdered_modifyBlock
    (wellOrdered_modifyBlock h₃ _ ?_) _ ?_) _ ?_) _ ?_ <;> exact fun _ => rfl

theorem wellOrdered_addShot [BEq F] (pitch yaw : F) (frame turnFrames : Int) :
    (self.addShot pitch yaw frame turnFrames).1.WellOrdered := by
  unfold addShot
  split
  · apply wellOrdered_prune
    apply wellOrdered_writeShot
    apply wellOrdered_removeTogglesFromRange
    apply wellOrdered_removeCvarsFromRange
    apply wellOrdered_removeCvarsFromRange
    exact h
  · exact h

theorem wellOrdered_removeShot (frame turnFrames : Int) :
    (self.removeShot frame turnFrames).WellOrdered := by
  apply wellOrdered_prune
  apply wellOrdered_removeTogglesFromRange
  apply wellOrdered_removeCvarsFromRange
  apply wellOrdered_removeCvarsFromRange
  exact h

end

/-! ### Moving blocks -/

theorem minValue_nonneg (h : self.WellOrdered) (i : ℕ) : 0 ≤ self.minValue i := by
  unfold minValue
  split
  · exact le_refl 0
  · cases hb : self.blocks[i - 1]? with
    | none => exact le_refl 0
    | some b => exact h.nonneg b (mem_of_getElem? hb)

variable {i : ℕ}

section

variable (h : self.WellOrdered)
include h

section

variable (hi : i < self.blocks.length)
include hi

theorem le_minValue_of_mem_take
    {b : FrameBlock F} (hb : b ∈ self.blocks.take i) : b.frame ≤ self.minValue i := by
  obtain ⟨j, hj, rfl⟩ := mem_take_iff_getElem.mp hb
  have hj' : j < i := by omega
  have hi1 : i - 1 < self.blocks.length := by omega
  have hmin : self.minValue i = (self.blocks[i - 1]).frame := by
    unfold minValue
    rw [if_neg (by omega), getElem?_eq_getElem hi1]
    rfl
  rw [hmin]
  exact h.sorted.getElem_le (by omega) hi1

theorem minValue_le :
    self.minValue i ≤ (self.blocks[i]).frame := by
  unfold minValue
  split
  · exact h.nonneg _ (getElem_mem hi)
  · have hi1 : i - 1 < self.blocks.length := by omega
    rw [getElem?_eq_getElem hi1]
    exact h.sorted.getElem_le (by omega) hi

theorem wellOrdered_moveBlock
    {f : FrameBlock F → FrameBlock F} (hlow : self.minValue i ≤ (f self.blocks[i]).frame)
    (hhigh : ∀ hj : i + 1 < self.blocks.length, (f self.blocks[i]).frame ≤ (self.blocks[i + 1]).frame) :
    (self.modifyBlock i f).WellOrdered := by
  unfold WellOrdered modifyBlock
  rw [modify_eq_take_cons_drop hi]
  have hsub : (self.blocks.take i ++ self.blocks.drop (i + 1)).Sublist self.blocks := by
    rw [← eraseIdx_eq_take_drop_succ]
    exact eraseIdx_sublist _ _
  have hrest := sublist h hsub
  constructor
  · refine hrest.sorted.insert_between ?_ ?_
    · intro b hb
      exact (le_minValue_of_mem_take h hi hb).trans hlow
    · intro b hb
      obtain ⟨j, hj, rfl⟩ := mem_drop_iff_getElem.mp hb
      have hnext : i + 1 < self.blocks.length := by omega
      exact (hhigh hnext).trans
        (h.sorted.getElem_le (show i + 1 ≤ i + 1 + j by omega) (by omega))
  · intro b hb
    rcases mem_append.mp hb with hb | hb
    · exact hrest.nonneg b (mem_append_left _ hb)
    · rcases mem_cons.mp hb with rfl | hb
      · exact (minValue_nonneg h i).trans hlow
      · exact hrest.nonneg b (mem_append_right _ hb)

theorem minValue_le_singleShift (delta : Int) :
    self.minValue i ≤ (self.blocks[i]).frame + self.singleShiftDelta i self.blocks[i] delta := by
  have hmin := minValue_le h hi
  unfold singleShiftDelta
  split
  · omega
  · next hneg =>
    split
    · unfold int32Max
      omega
    · next b hnext =>
      obtain ⟨hi', rfl⟩ := List.getElem?_eq_some_iff.mp hnext
      have hle := h.sorted.getElem_le (show i ≤ i + 1 by omega) hi'
      omega

end

theorem singleShift_le (hi : i + 1 < self.blocks.length) (delta : Int) :
    (self.blocks[i]).frame + self.singleShiftDelta i self.blocks[i] delta ≤
      (self.blocks[i + 1]).frame := by
  have hmin := minValue_le h (show i < self.blocks.length by omega)
  have hle := h.sorted.getElem_le (show i ≤ i + 1 by omega) hi
  unfold singleShiftDelta
  rw [getElem?_eq_getElem hi]
  split
  · omega
  · show _ + min _ _ ≤ _
    omega

theorem wellOrdered_shiftSingleBlock (i : ℕ) (delta : Int) :
    (self.shiftSingleBlock i delta).WellOrdered := by
  unfold shiftSingleBlock
  cases hb : self.blocks[i]? with
  | none => exact h
  | some block =>
    obtain ⟨hi, rfl⟩ := List.getElem?_eq_some_iff.mp hb
    exact wellOrdered_moveBlock h hi (minValue_le_singleShift h hi delta)
      fun hj => singleShift_le h hj delta

theorem wellOrdered_shiftBlocks (i : ℕ) (delta : Int) :
    (self.shiftBlocks i delta).1.WellOrdered := by
  unfold shiftBlocks
  cases hb : self.blocks[i]? with
  | none => exact h
  | some block =>
    obtain ⟨hi, hblock⟩ := List.getElem?_eq_some_iff.mp hb
    simp only
    split
    · exact h
    · -- every block moved is at or after `block`, which stays at or above `minValue`
      have hmin := minValue_le h hi
      rw [hblock] at hmin
      have hdelta : self.minValue i ≤ block.frame + self.shiftDelta i block delta := by
        unfold shiftDelta
        simp only
        split
        · split <;> omega
        · omega
      have hlow : ∀ b ∈ self.blocks.drop i,
          self.minValue i ≤ b.frame + self.shiftDelta i block delta := by
        intro b hb
        obtain ⟨j, hj, rfl⟩ := mem_drop_iff_getElem.mp hb
        have hle := h.sorted.getElem_le (show i ≤ i + j by omega) (by omega)
        rw [hblock] at hle
        omega
      refine append (sublist h (take_sublist _ _)) ?_ ?_
      · constructor
        · have hsorted := h.sorted.sublist (drop_sublist i _)
          unfold KeySorted at hsorted ⊢
          rw [pairwise_map]
          refine hsorted.imp fun {a b} hab => ?_
          show a.frame + _ ≤ b.frame + _
          omega
        · intro b hb
          obtain ⟨c, hc, rfl⟩ := mem_map.mp hb
          exact (minValue_nonneg h i).trans (hlow c hc)
      · intro a ha b hb
        obtain ⟨c, hc, rfl⟩ := mem_map.mp hb
        exact (le_minValue_of_mem_take h hi ha).trans (hlow c hc)

end

end TASScript

/-! ## The editing commands -/

namespace PlaybackInfo

/-- The script being played is ordered. -/
def WellOrdered (self : PlaybackInfo F) : Prop := Ordered self.currentScript.blocks

variable {self : PlaybackInfo F}

theorem wellOrdered_addBlock (h : self.WellOrdered) {frame : Int} (hf : 0 ≤ frame) :
    (self.addBlock frame).1.WellOrdered := by
  refine insertIdx_findIdx h hf ?_ ?_
  · intro c hc
    exact (of_decide_eq_true hc).le
  · intro c hc
    exact not_lt.mp (of_decide_eq_false hc)

variable {info : PlaybackInfo F}

theorem wellOrdered_getBlockForFrame (h : self.WellOrdered) {frame : Int}
    (hf : 0 ≤ self.frameOrCurrent frame) {i : ℕ} (hs : self.getBlockForFrame frame = some (info, i)) :
    info.WellOrdered := by
  rcases getBlockForFrame_inv hs with ⟨-, rfl, -⟩ | ⟨-, hadd⟩
  · exact h
  · have hi : info = (self.addBlock (self.frameOrCurrent frame)).1 := congrArg Prod.fst hadd
    rw [hi]
    exact wellOrdered_addBlock h hf

variable {now : ℕ}

theorem wellOrdered_editShrink (h : self.WellOrdered) (hs : self.editShrink now = .ok info) :
    info.WellOrdered := by
  rcases editShrink_inv hs with rfl | rfl
  · exact h
  · exact sublist h (take_sublist _ _)

theorem wellOrdered_editDelete (h : self.WellOrdered) (hs : self.editDelete now = .ok info) :
    info.WellOrdered := by
  obtain ⟨-, rfl⟩ := editDelete_inv hs
  exact sublist h (eraseIdx_sublist _ _)

theorem mem_insertShifted {newBlock c : FrameBlock F} {l : List (FrameBlock F)}
    (hc : c ∈ insertShifted newBlock l) : c = newBlock ∨ c ∈ l := by
  induction l with
  | nil => exact Or.inl (mem_singleton.mp hc)
  | cons b rest ih =>
    unfold insertShifted at hc
    split at hc
    · exact Or.inr hc
    · split at hc
      · exact mem_cons.mp hc
      · rcases mem_cons.mp hc with rfl | hc
        · exact Or.inr mem_cons_self
        · rcases ih hc with rfl | hc
          · exact Or.inl rfl
          · exact Or.inr (mem_cons_of_mem _ hc)

/-- Induction on the blocks: the scan of `Shift_Block` passes blocks before the new one and
stops at the first one that is not. -/
theorem ordered_insertShifted {newBlock : FrameBlock F} (hn : 0 ≤ newBlock.frame)
    {l : List (FrameBlock F)} (h : Ordered l) : Ordered (insertShifted newBlock l) := by
  constructor
  · have hsorted := h.sorted
    clear h
    induction l with
    | nil => exact pairwise_singleton _ _
    | cons b rest ih =>
      obtain ⟨hb, hrest⟩ := pairwise_cons.mp hsorted
      unfold insertShifted
      split
      · exact hsorted
      · next hne =>
        split
        · next hlt =>
          refine pairwise_cons.mpr ⟨?_, hsorted⟩
          intro c hc
          rcases mem_cons.mp hc with rfl | hc
          · exact hlt.le
          · exact hlt.le.trans (hb c hc)
        · next hge =>
          refine pairwise_cons.mpr ⟨?_, ih hrest⟩
          intro c hc
          rcases mem_insertShifted hc with rfl | hc
          · exact not_lt.mp hge
          · exact hb c hc
  · intro c hc
    rcases mem_insertShifted hc with rfl | hc
    · exact hn
    · exact h.nonneg c hc

theorem wellOrdered_editShift (h : self.WellOrdered) {frames newFrame : Int}
    (hs : self.editShift now frames = .ok (info, newFrame)) : info.WellOrdered := by
  obtain ⟨-, hlow, block, -, rfl⟩ := editShift_inv hs
  exact ordered_insertShifted hlow (sublist h (eraseIdx_sublist _ _))

/-- The blocks of the stack go back one by one; each goes back at a frame that the check
before has found to be non-negative. -/
theorem wellOrdered_foldl_shiftBlock {moved : List (FrameBlock F)} (hm : ∀ b ∈ moved, 0 ≤ b.frame)
    (h : self.WellOrdered) : (moved.foldl (shiftBlock now) self).WellOrdered := by
  induction moved generalizing self with
  | nil => exact h
  | cons b moved ih =>
    refine ih (fun c hc => hm c (mem_cons_of_mem _ hc)) ?_
    exact ordered_insertShifted (hm b mem_cons_self) h

theorem wellOrdered_editShiftStack (h : self.WellOrdered) {frames : Int}
    (hs : self.editShiftStack now frames = .ok info) : info.WellOrdered := by
  obtain ⟨hcheck, rfl⟩ := editShiftStack_inv hs
  have hsub : self.stackToKeep.Sublist self.currentScript.blocks := by
    unfold stackToKeep
    rw [← reverse_sublist, reverse_reverse]
    exact dropWhile_sublist _
  refine wellOrdered_foldl_shiftBlock ?_ (sublist h hsub)
  intro b hb
  obtain ⟨c, hc, rfl⟩ := mem_map.mp hb
  exact (hcheck c hc).1

end PlaybackInfo

/-! ## Any sequence of edits -/

namespace Analysis.ScriptOrder

/-- The operations that edit the script being played. -/
inductive Edit (F : Type) where
  | addCvar (cmd : Str) (value : F) (frame : Int)
  | addToggle (cmd : Str) (state : Bool) (frame : Int)
  | addCommand (cmd : Str) (frame : Int)
  | addShot (pitch yaw : F) (frame turnFrames : Int)
  | removeShot (frame turnFrames : Int)
  | prune (minFrame maxFrame : Int)
  | pruneFrom (minFrame : Int)
  | removeBlocksAfterFrame (frame : Int)
  | removeCvarsFromRange (name : Str) (minFrame maxFrame : Int)
  | removeTogglesFromRange (name : Str) (minFrame maxFrame : Int)
  | shiftBlocks (blockIndex : ℕ) (delta : Int)
  | shiftSingleBlock (blockIndex : ℕ) (delta : Int)
  | addScript (script : TASScript F) (frame : Int)
  | addBlock (frame : Int)
  | getBlockForFrame (frame : Int)
  | editShift (now : ℕ) (frames : Int)
  | editShiftStack (now : ℕ) (frames : Int)
  | editDelete (now : ℕ)
  | editShrink (now : ℕ)
  /-- playback moves to another frame between two edits -/
  | seek (frame : Int)

/-- An operation of `TASScript` on the script being played. -/
def onScript (info : PlaybackInfo F) (f : TASScript F → TASScript F) : Option (PlaybackInfo F) :=
  some { info with currentScript := f info.currentScript }

/-- The playback information after a command, which a refused command leaves alone. -/
def accepted {ε : Type} (info : PlaybackInfo F) (r : Except ε (PlaybackInfo F)) :
    Option (PlaybackInfo F) :=
  match r with
  | .ok info' => some info'
  | .error _ => some info

/-- The effect of an operation. -/
def step [BEq F] (info : PlaybackInfo F) : Edit F → Option (PlaybackInfo F)
  | .addCvar cmd value frame => onScript info fun s => s.addCvar cmd value frame
  | .addToggle cmd state frame => onScript info fun s => s.addToggle cmd state frame
  | .addCommand cmd frame => onScript info fun s => s.addCommand cmd frame
  | .addShot pitch yaw frame turnFrames =>
    onScript info fun s => (s.addShot pitch yaw frame turnFrames).1
  | .removeShot frame turnFrames => onScript info fun s => s.removeShot frame turnFrames
  | .prune minFrame maxFrame => onScript info fun s => s.prune minFrame maxFrame
  | .pruneFrom minFrame => onScript info fun s => s.pruneFrom minFrame
  | .removeBlocksAfterFrame frame => onScript info fun s => s.removeBlocksAfterFrame frame
  | .removeCvarsFromRange name minFrame maxFrame =>
    onScript info fun s => s.removeCvarsFromRange name minFrame maxFrame
  | .removeTogglesFromRange name minFrame maxFrame =>
    onScript info fun s => s.removeTogglesFromRange name minFrame maxFrame
  | .shiftBlocks blockIndex delta => onScript info fun s => (s.shiftBlocks blockIndex delta).1
  | .shiftSingleBlock blockIndex delta => onScript info fun s => s.shiftSingleBlock blockIndex delta
  | .addScript script frame => onScript info fun s => s.addScript script frame
  | .addBlock frame => some (info.addBlock frame).1
  | .getBlockForFrame frame => some (((info.getBlockForFrame frame).map Prod.fst).getD info)
  | .editShift now frames => accepted info ((info.editShift now frames).map Prod.fst)
  | .editShiftStack now frames => accepted info (info.editShiftStack now frames)
  | .editDelete now => accepted info (info.editDelete now)
  | .editShrink now => accepted info (info.editShrink now)
  | .seek frame => some { info with currentFrame := frame }

/-- The frames handed to the insertions are non-negative, indices are in range, and a script
to be spliced in is ordered itself. -/
def Valid (info : PlaybackInfo F) : Edit F → Prop
  | .addCvar _ _ frame => 0 ≤ frame
  | .addToggle _ _ frame => 0 ≤ frame
  | .addCommand _ frame => 0 ≤ frame
  | .addShot _ _ _ turnFrames => 1 ≤ turnFrames
  | .removeShot _ turnFrames => 1 ≤ turnFrames
  | .shiftBlocks blockIndex _ => blockIndex < info.currentScript.blocks.length
  | .shiftSingleBlock blockIndex _ => blockIndex < info.currentScript.blocks.length
  | .addScript script frame => script.WellOrdered ∧ 0 ≤ frame
  | .addBlock frame => 0 ≤ frame
  | .getBlockForFrame frame => 0 ≤ info.frameOrCurrent frame
  | _ => True

theorem wellOrdered_accepted {ε : Type} {info info' : PlaybackInfo F}
    {r : Except ε (PlaybackInfo F)} (h : info.WellOrdered) (hs : accepted info r = some info')
    (hr : ∀ i, r = .ok i → i.WellOrdered) : info'.WellOrdered := by
  cases r with
  | error e =>
    cases hs
    exact h
  | ok i =>
    cases hs
    exact hr info' rfl

theorem wellOrdered_step [BEq F] (info : PlaybackInfo F) (e : Edit F) (info' : PlaybackInfo F)
    (h : info.WellOrdered) (hv : Valid info e) (hs : step info e = some info') :
    info'.WellOrdered := by
  cases e with
  | addCvar cmd value frame =>
    cases hs
    exact wellOrdered_addCvar h _ _ hv
  | addToggle cmd state frame =>
    cases hs
    exact wellOrdered_addToggle h _ _ hv
  | addCommand cmd frame =>
    cases hs
    exact wellOrdered_addCommand h _ hv
  | addShot pitch yaw frame turnFrames =>
    cases hs
    exact wellOrdered_addShot h _ _ _ _
  | removeShot frame turnFrames =>
    cases hs
    exact wellOrdered_removeShot h _ _
  | prune minFrame maxFrame =>
    cases hs
    exact wellOrdered_prune h _ _
  | pruneFrom minFrame =>
    cases hs
    exact wellOrdered_pruneFrom h _
  | removeBlocksAfterFrame frame =>
    cases hs
    exact wellOrdered_removeBlocksAfterFrame h _
  | removeCvarsFromRange name minFrame maxFrame =>
    cases hs
    exact wellOrdered_removeCvarsFromRange h _ _ _
  | removeTogglesFromRange name minFrame maxFrame =>
    cases hs
    exact wellOrdered_removeTogglesFromRange h _ _ _
  | shiftBlocks blockIndex delta =>
    cases hs
    exact wellOrdered_shiftBlocks h _ _
  | shiftSingleBlock blockIndex delta =>
    cases hs
    exact wellOrdered_shiftSingleBlock h _ _
  | addScript script frame =>
    cases hs
    exact wellOrdered_addScript h hv.1 hv.2
  | addBlock frame =>
    cases hs
    exact wellOrdered_addBlock h hv
  | getBlockForFrame frame =>
    cases hs
    cases hg : info.getBlockForFrame frame with
    | none => exact h
    | some r => exact wellOrdered_getBlockForFrame h hv hg
  | editShift now frames =>
    apply wellOrdered_accepted h hs
    intro i hi
    cases hr : info.editShift now frames with
    | error e =>
      rw [hr] at hi
      cases hi
    | ok r =>
      rw [hr] at hi
      cases hi
      exact wellOrdered_editShift h hr
  | editShiftStack now frames =>
    exact wellOrdered_accepted h hs fun i hi => wellOrdered_editShiftStack h hi
  | editDelete now =>
    exact wellOrdered_accepted h hs fun i hi => wellOrdered_editDelete h hi
  | editShrink now =>
    exact wellOrdered_accepted h hs fun i hi => wellOrdered_editShrink h hi
  | seek frame =>
    cases hs
    exact h

/-- **The script stays ordered under editing**: from a script whose frames are non-negative
and non-decreasing, every sequence of edits leads to such a script.
(script_parse.cpp:470-773, tas/script_playback.cpp:194-244, 817-975) -/
theorem editing_keeps_script_ordered [BEq F] (edits : List (Edit F)) (info info' : PlaybackInfo F)
    (h : info.WellOrdered) (hv : Guarded step Valid info edits)
    (hr : run step info edits = some info') : info'.WellOrdered :=
  invariant_run wellOrdered_step h hv hr

/-- A shot added to an empty script at frame 20, everything from its second block on moved
down as far as it goes, and the blocks after frame 15 moved up again. -/
theorem editing_keeps_script_ordered_shot :
    ∃ info', run step ({} : PlaybackInfo Int)
        [.addShot 10 20 20 5, .shiftBlocks 1 (-100), .seek 15, .editShiftStack 0 3] = some info' ∧
      info'.WellOrdered := by
  refine ⟨_, rfl, editing_keeps_script_ordered
    [.addShot 10 20 20 5, .shiftBlocks 1 (-100), .seek 15, .editShiftStack 0 3] {} _ nil
    ?_ rfl⟩
  refine guarded_cons ?_ rfl (guarded_cons ?_ rfl (guarded_cons trivial rfl
    (guarded_cons trivial rfl (guarded_nil _))))
  · show (1 : Int) ≤ 5
    decide
  · show 1 < _
    decide

end Analysis.ScriptOrder

end TASQuake
