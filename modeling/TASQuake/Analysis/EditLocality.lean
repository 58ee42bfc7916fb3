import TASQuake.Interface.ScriptMeaning
import TASQuake.Model.EditBlocks

/-!
# Edits leave the earlier blocks alone

What an edit does to the blocks before a frame `k`: nothing, as long as every frame it
touches is at or after `k`.  One lemma per operation says which frames those are.  The
scripts need not be ordered.
-/

namespace TASQuake

open Lib FrameBlock List

variable {F : Type} {k : Int}

/-- The blocks before frame `k`. -/
def blocksBelow (k : Int) (blocks : List (FrameBlock F)) : List (FrameBlock F) :=
  below frame k blocks

theorem blocksBelow_modify {l : List (FrameBlock F)} {i : ℕ} {g : FrameBlock F → FrameBlock F}
    (hg : ∀ b, (g b).frame = b.frame) (h : ∀ b, l[i]? = some b → k ≤ b.frame) :
    blocksBelow k (l.modify i g) = blocksBelow k l := by
  apply below_modify
  intro b hb
  have hk := h b hb
  exact ⟨hk, by rw [hg]; exact hk⟩

theorem frame_getElem?_modify {l : List (FrameBlock F)} {i : ℕ} {g : FrameBlock F → FrameBlock F}
    (hg : ∀ b, (g b).frame = b.frame) (j : ℕ) :
    ((l.modify i g)[j]?).map frame = (l[j]?).map frame := by
  rw [← getElem?_map, ← getElem?_map, map_modify_of_key frame g hg]

namespace TASScript

variable {minFrame : Int}

section

variable (h : k ≤ minFrame)
include h

theorem blocksBelow_prune {s : TASScript F} (maxFrame : Int) :
    blocksBelow k (s.prune minFrame maxFrame).blocks = blocksBelow k s.blocks := by
  apply below_filter
  intro b _ hb
  have hrange : inRange minFrame maxFrame b = false := by
    unfold inRange
    rw [decide_eq_false (by omega), Bool.false_and]
  rw [hrange, Bool.and_false]
  rfl

theorem blocksBelow_pruneFrom {s : TASScript F} :
    blocksBelow k (s.pruneFrom minFrame).blocks = blocksBelow k s.blocks := by
  apply below_filter
  intro b _ hb
  rw [decide_eq_false (by omega), Bool.and_false]
  rfl

theorem blocksBelow_mapRange {l : List (FrameBlock F)} {maxFrame : Int}
    {g : FrameBlock F → FrameBlock F} (hg : ∀ b, (g b).frame = b.frame) :
    blocksBelow k (l.map fun b => if inRange minFrame maxFrame b then g b else b) =
      blocksBelow k l := by
  apply below_map
  · intro b _ hb
    have hrange : inRange minFrame maxFrame b = false := by
      unfold inRange
      rw [decide_eq_false (by omega), Bool.false_and]
    rw [hrange]
    rfl
  · intro b _ hb
    split
    · rw [hg]
      exact hb
    · exact hb

theorem blocksBelow_removeCvarsFromRange {s : TASScript F} (name : Str)
    (maxFrame : Int) :
    blocksBelow k (s.removeCvarsFromRange name minFrame maxFrame).blocks =
      blocksBelow k s.blocks :=
  blocksBelow_mapRange h fun _ => rfl

theorem blocksBelow_removeTogglesFromRange {s : TASScript F} (name : Str)
    (maxFrame : Int) :
    blocksBelow k (s.removeTogglesFromRange name minFrame maxFrame).blocks =
      blocksBelow k s.blocks :=
  blocksBelow_mapRange h fun _ => rfl

end

/-! ## Insertions -/

/-- The block at index `i` is the first one at or after `frame`, and is on it. -/
structure FirstOn (s : TASScript F) (frame : Int) (i : ℕ) : Prop where
  on : (s.blocks[i]?).map FrameBlock.frame = some frame
  first : ∀ j < i, ∀ b, s.blocks[j]? = some b → b.frame < frame

variable {frame : Int}

theorem lt_of_lt_getBlockIndex {s : TASScript F} {j : ℕ} (hj : j < s.getBlockIndex frame)
    {b : FrameBlock F} (hb : s.blocks[j]? = some b) : b.frame < frame := by
  obtain ⟨hlt, rfl⟩ := List.getElem?_eq_some_iff.mp hb
  have hp := not_of_lt_findIdx hj
  exact not_le.mp (of_decide_eq_false hp)

variable (s : TASScript F)

theorem firstOn_getBlockForInsertion (frame : Int) :
    (s.getBlockForInsertion frame).1.FirstOn frame (s.getBlockForInsertion frame).2 := by
  have hle : s.getBlockIndex frame ≤ s.blocks.length := findIdx_le_length
  rcases s.getBlockForInsertion_cases frame with ⟨b, hb, hbf, heq⟩ | ⟨-, heq⟩
  · rw [heq]
    refine ⟨by rw [hb, ← hbf]; rfl, fun j hj c hc => lt_of_lt_getBlockIndex hj hc⟩
  · rw [heq]
    constructor
    · show ((s.blocks.insertIdx _ _)[_]?).map _ = _
      rw [getElem?_insertIdx_self, if_pos hle]
      rfl
    · intro j hj c hc
      have hc' : (s.blocks.insertIdx (s.getBlockIndex frame) { frame := frame })[j]? = some c := hc
      rw [getElem?_insertIdx_of_lt hj] at hc'
      exact lt_of_lt_getBlockIndex hj hc'

variable {i : ℕ}

theorem FirstOn.getBlockForInsertion {s : TASScript F} (h : s.FirstOn frame i) {frame' : Int}
    (hle : frame ≤ frame') : (s.getBlockForInsertion frame').1.FirstOn frame i := by
  rcases s.getBlockForInsertion_cases frame' with ⟨b, hb, hbf, heq⟩ | ⟨hafter, heq⟩
  · rw [heq]
    exact h
  · -- the new block goes in after index `i`
    have hi : i < s.getBlockIndex frame' := by
      by_contra hge
      have hge' := not_lt.mp hge
      obtain ⟨b, hb, hbf⟩ := Option.map_eq_some_iff.mp h.on
      have hlen : s.getBlockIndex frame' < s.blocks.length := by
        have hil := (List.getElem?_eq_some_iff.mp hb).1
        omega
      obtain ⟨c, hc⟩ : ∃ c, s.blocks[s.getBlockIndex frame']? = some c :=
        ⟨_, getElem?_eq_getElem hlen⟩
      have hlt := hafter c hc
      rcases hge'.eq_or_lt with heq' | hlt'
      · rw [heq', hb] at hc
        cases hc
        omega
      · have hlow := h.first _ hlt' c hc
        omega
    rw [heq]
    constructor
    · show ((s.blocks.insertIdx _ _)[_]?).map _ = _
      rw [getElem?_insertIdx_of_lt hi]
      exact h.on
    · intro j hj b hb
      have hb' : (s.blocks.insertIdx (s.getBlockIndex frame') { frame := frame' })[j]? = some b := hb
      rw [getElem?_insertIdx_of_lt (by omega)] at hb'
      exact h.first j hj b hb'

theorem blocksBelow_getBlockForInsertion (h : k ≤ frame) :
    blocksBelow k (s.getBlockForInsertion frame).1.blocks = blocksBelow k s.blocks := by
  rcases s.getBlockForInsertion_cases frame with ⟨b, -, -, heq⟩ | ⟨-, heq⟩
  · rw [heq]
  · rw [heq]
    exact below_insertIdx h _ _

theorem blocksBelow_modifyBlock {s : TASScript F}
    (hon : (s.blocks[i]?).map FrameBlock.frame = some frame) (h : k ≤ frame)
    {g : FrameBlock F → FrameBlock F} (hg : ∀ b, (g b).frame = b.frame) :
    blocksBelow k (s.modifyBlock i g).blocks = blocksBelow k s.blocks := by
  apply blocksBelow_modify hg
  intro b hb
  rw [hb] at hon
  have hbf : b.frame = frame := Option.some.inj hon
  omega

theorem blocksBelow_setConvarAt {s : TASScript F}
    (hon : (s.blocks[i]?).map FrameBlock.frame = some frame) (h : k ≤ frame) (cmd : Str) (value : F) :
    blocksBelow k (s.setConvarAt i cmd value).blocks = blocksBelow k s.blocks :=
  blocksBelow_modifyBlock hon h fun _ => rfl

theorem blocksBelow_setToggleAt {s : TASScript F}
    (hon : (s.blocks[i]?).map FrameBlock.frame = some frame) (h : k ≤ frame) (cmd : Str)
    (state : Bool) : blocksBelow k (s.setToggleAt i cmd state).blocks = blocksBelow k s.blocks :=
  blocksBelow_modifyBlock hon h fun _ => rfl

theorem frame_getElem?_setConvarAt (i j : ℕ) (cmd : Str) (value : F) :
    ((s.setConvarAt i cmd value).blocks[j]?).map FrameBlock.frame =
      (s.blocks[j]?).map FrameBlock.frame := by
  apply frame_getElem?_modify
  intro b
  rfl

theorem frame_getElem?_setToggleAt (i j : ℕ) (cmd : Str) (state : Bool) :
    ((s.setToggleAt i cmd state).blocks[j]?).map FrameBlock.frame =
      (s.blocks[j]?).map FrameBlock.frame := by
  apply frame_getElem?_modify
  intro b
  rfl

theorem blocksBelow_addCvar (cmd : Str) (value : F) (h : k ≤ frame) :
    blocksBelow k (s.addCvar cmd value frame).blocks = blocksBelow k s.blocks := by
  have hon := (firstOn_getBlockForInsertion s frame).on
  show blocksBelow k ((s.getBlockForInsertion frame).1.setConvarAt
    (s.getBlockForInsertion frame).2 cmd value).blocks = _
  rw [blocksBelow_setConvarAt hon h, blocksBelow_getBlockForInsertion s h]

/-! ## Shots -/

/-- The script with blocks on the three frames of a shot. -/
def withShotBlocks (s : TASScript F) (frame turnFrames : Int) : TASScript F :=
  (((s.getBlockForInsertion (turnFrame frame turnFrames)).1.getBlockForInsertion
    (shootFrame frame)).1.getBlockForInsertion (shootOffFrame frame)).1

variable {turnFrames : Int}

theorem turnFrame_le_shootFrame (frame : Int) (hturn : 1 ≤ turnFrames) :
    turnFrame frame turnFrames ≤ shootFrame frame := by
  unfold turnFrame shootFrame
  omega

theorem shootFrame_le_shootOffFrame (frame : Int) : shootFrame frame ≤ shootOffFrame frame := by
  unfold shootFrame shootOffFrame
  omega

/-- The three indices that `AddShot` takes stay on their frames while it inserts, since the frames
of a shot come in order. -/
theorem writeShot_eq (pitch yaw : F) (hturn : turnFrame frame turnFrames ≤ shootFrame frame) :
    ∃ i₁ i₂ i₃ : ℕ,
      (((s.withShotBlocks frame turnFrames).blocks[i₁]?).map FrameBlock.frame =
        some (turnFrame frame turnFrames)) ∧
      (((s.withShotBlocks frame turnFrames).blocks[i₂]?).map FrameBlock.frame =
        some (shootFrame frame)) ∧
      (((s.withShotBlocks frame turnFrames).blocks[i₃]?).map FrameBlock.frame =
        some (shootOffFrame frame)) ∧
      s.writeShot pitch yaw frame turnFrames =
        ((((s.withShotBlocks frame turnFrames).setConvarAt i₁ (str "tas_view_yaw") yaw).setConvarAt
          i₁ (str "tas_view_pitch") pitch).setToggleAt i₂ (str "attack") true).setToggleAt i₃
          (str "attack") false := by
  have hoff := shootFrame_le_shootOffFrame frame
  let s₁ := (s.getBlockForInsertion (turnFrame frame turnFrames)).1
  let s₂ := (s₁.getBlockForInsertion (shootFrame frame)).1
  refine ⟨(s.getBlockForInsertion (turnFrame frame turnFrames)).2,
    (s₁.getBlockForInsertion (shootFrame frame)).2,
    (s₂.getBlockForInsertion (shootOffFrame frame)).2, ?_, ?_, ?_, rfl⟩
  · exact (((firstOn_getBlockForInsertion s _).getBlockForInsertion hturn).getBlockForInsertion
      (hturn.trans hoff)).on
  · exact ((firstOn_getBlockForInsertion s₁ _).getBlockForInsertion hoff).on
  · exact (firstOn_getBlockForInsertion s₂ _).on

/-- **What holds of a written shot**: whatever its insertions and its writes keep, each on one of
the frames of the shot. -/
theorem writeShot_keeps {P : TASScript F → Prop} {s : TASScript F} (pitch yaw : F)
    (hturn : turnFrame frame turnFrames ≤ shootFrame frame) (hs : P s)
    (hinsert : ∀ t f, turnFrame frame turnFrames ≤ f → P t → P (t.getBlockForInsertion f).1)
    (hconvar : ∀ t i name v, (t.blocks[i]?).map FrameBlock.frame = some (turnFrame frame turnFrames) → name = str "tas_view_yaw" ∨ name = str "tas_view_pitch" → P t → P (t.setConvarAt i name v))
    (htoggle : ∀ t i f v, (t.blocks[i]?).map FrameBlock.frame = some f → f = shootFrame frame ∨ f = shootOffFrame frame → P t → P (t.setToggleAt i (str "attack") v)) :
    P (s.writeShot pitch yaw frame turnFrames) := by
  have hoff := shootFrame_le_shootOffFrame frame
  obtain ⟨i₁, i₂, i₃, hon₁, hon₂, hon₃, heq⟩ := s.writeShot_eq pitch yaw hturn
  have hblocks := hinsert _ _ (hturn.trans hoff) (hinsert _ _ hturn (hinsert _ _ (le_refl _) hs))
  rw [heq]
  apply htoggle _ _ (shootOffFrame frame) _ ?_ (.inr rfl)
  · apply htoggle _ _ (shootFrame frame) _ ?_ (.inl rfl)
    · apply hconvar _ _ _ _ ?_ (.inr rfl)
      · exact hconvar _ _ _ _ hon₁ (.inl rfl) hblocks
      · rw [frame_getElem?_setConvarAt]
        exact hon₁
    · rw [frame_getElem?_setConvarAt, frame_getElem?_setConvarAt]
      exact hon₂
  · rw [frame_getElem?_setToggleAt, frame_getElem?_setConvarAt, frame_getElem?_setConvarAt]
    exact hon₃

theorem blocksBelow_writeShot (pitch yaw : F) (hturn : 1 ≤ turnFrames)
    (h : k ≤ turnFrame frame turnFrames) :
    blocksBelow k (s.writeShot pitch yaw frame turnFrames).blocks = blocksBelow k s.blocks := by
  have hshoot := turnFrame_le_shootFrame frame hturn
  have hoff := shootFrame_le_shootOffFrame frame
  refine writeShot_keeps (P := fun t => blocksBelow k t.blocks = blocksBelow k s.blocks) pitch yaw
    hshoot rfl ?_ ?_ ?_
  · intro t f hf ht
    rw [blocksBelow_getBlockForInsertion t (h.trans hf), ht]
  · intro t i name v hon _ ht
    rw [blocksBelow_setConvarAt hon h, ht]
  · intro t i f v hon hf ht
    rw [blocksBelow_setToggleAt hon (by omega), ht]

theorem blocksBelow_addShot [BEq F] (pitch yaw : F) (hturn : 1 ≤ turnFrames)
    (h : k ≤ turnFrame frame turnFrames - clearRange) :
    blocksBelow k (s.addShot pitch yaw frame turnFrames).1.blocks = blocksBelow k s.blocks := by
  have hclear : clearRange = 2 := rfl
  have hshoot : turnFrame frame turnFrames ≤ shootFrame frame := by
    unfold turnFrame shootFrame
    omega
  unfold addShot
  split
  · show blocksBelow k (TASScript.prune _ _ _).blocks = _
    unfold clearShotWindow
    rw [blocksBelow_prune h, blocksBelow_writeShot _ _ _ hturn (by omega),
      blocksBelow_removeTogglesFromRange (by omega), blocksBelow_removeCvarsFromRange h,
      blocksBelow_removeCvarsFromRange h]
  · rfl

theorem blocksBelow_removeShot (hturn : k ≤ turnFrame frame turnFrames)
    (hshoot : k ≤ shootFrame frame) :
    blocksBelow k (s.removeShot frame turnFrames).blocks = blocksBelow k s.blocks := by
  unfold removeShot
  rw [blocksBelow_prune hturn, blocksBelow_removeTogglesFromRange hshoot,
    blocksBelow_removeCvarsFromRange hturn, blocksBelow_removeCvarsFromRange hturn]

/-! ## Moving blocks, splicing -/

theorem blocksBelow_shiftSingleBlock (i : ℕ) (delta : Int)
    (h : ∀ b, s.blocks[i]? = some b → k ≤ b.frame)
    (h' : ∀ b, (s.shiftSingleBlock i delta).blocks[i]? = some b → k ≤ b.frame) :
    blocksBelow k (s.shiftSingleBlock i delta).blocks = blocksBelow k s.blocks := by
  unfold shiftSingleBlock at h' ⊢
  cases hb : s.blocks[i]? with
  | none => rfl
  | some block =>
    apply below_modify
    intro a ha
    refine ⟨h a ha, ?_⟩
    simp only [hb] at h'
    apply h'
    show (s.blocks.modify i _)[i]? = _
    rw [getElem?_modify, ha]
    simp

theorem shiftBlocks_take (i : ℕ) (delta : Int) :
    (s.shiftBlocks i delta).1.blocks.take i = s.blocks.take i := by
  unfold shiftBlocks
  cases hb : s.blocks[i]? with
  | none => rfl
  | some block =>
    simp only
    split
    · rfl
    · have hi := (List.getElem?_eq_some_iff.mp hb).1
      have hlen : (s.blocks.take i).length = i := by
        rw [length_take]
        omega
      rw [take_append_of_le_length (by omega), take_take, min_self]

theorem blocksBelow_shiftBlocks (i : ℕ) (delta : Int) (h : ∀ b ∈ s.blocks.drop i, k ≤ b.frame)
    (h' : ∀ b ∈ (s.shiftBlocks i delta).1.blocks.drop i, k ≤ b.frame) :
    blocksBelow k (s.shiftBlocks i delta).1.blocks = blocksBelow k s.blocks :=
  below_eq_of_take_eq i (shiftBlocks_take s i delta) h h'

theorem blocksBelow_addScript (script : TASScript F) (frame : Int)
    (h : ∀ b ∈ s.blocks.dropWhile (fun b => decide (b.frame < frame)), k ≤ b.frame)
    (h' : ∀ b ∈ script.blocks, k ≤ b.frame + frame) :
    blocksBelow k (s.addScript script frame).blocks = blocksBelow k s.blocks := by
  have hold : blocksBelow k s.blocks =
      blocksBelow k (s.blocks.takeWhile fun b => decide (b.frame < frame)) := by
    conv_lhs => rw [← takeWhile_append_dropWhile (p := fun b : FrameBlock F =>
      decide (b.frame < frame)) (l := s.blocks)]
    unfold blocksBelow
    rw [below_append, below_eq_nil h, append_nil]
  rw [hold]
  unfold addScript blocksBelow
  rw [below_append]
  have hnew : below FrameBlock.frame k
      ((script.blocks.map (shiftFrame frame)).filter fun b => !b.isBlank) = [] := by
    apply below_eq_nil
    intro b hb
    obtain ⟨c, hc, rfl⟩ := mem_map.mp (mem_of_mem_filter hb)
    exact h' c hc
  rw [hnew, append_nil]

end TASScript

/-! ## The editing commands -/

namespace PlaybackInfo

variable {info : PlaybackInfo F}

theorem le_frame_of_getBlockNumber {frame : Int} {b : FrameBlock F}
    (h : info.currentScript.blocks[info.getBlockNumber frame]? = some b) :
    info.frameOrCurrent frame ≤ b.frame := by
  obtain ⟨hi, rfl⟩ := List.getElem?_eq_some_iff.mp h
  have hp := findIdx_getElem (w := hi)
  exact of_decide_eq_true hp

theorem frameOrCurrent_frameOrCurrent (info : PlaybackInfo F) (frame : Int) :
    info.frameOrCurrent (info.frameOrCurrent frame) = info.frameOrCurrent frame := by
  unfold frameOrCurrent
  by_cases h : frame = -1
  · rw [if_pos h, ite_self]
  · rw [if_neg h, if_neg h]

theorem blocksBelow_insertShifted {newBlock : FrameBlock F} (h : k ≤ newBlock.frame)
    (l : List (FrameBlock F)) : blocksBelow k (insertShifted newBlock l) = blocksBelow k l := by
  unfold blocksBelow
  induction l with
  | nil => exact below_cons_of_le [] h
  | cons b rest ih =>
    unfold insertShifted
    split
    · rfl
    · split
      · exact below_cons_of_le _ h
      · by_cases hb : b.frame < k
        · rw [below_cons_of_lt _ hb, below_cons_of_lt _ hb, ih]
        · rw [below_cons_of_le _ (not_lt.mp hb), below_cons_of_le _ (not_lt.mp hb), ih]

variable {now : ℕ}

theorem blocksBelow_foldl_shiftBlock {moved : List (FrameBlock F)} (hm : ∀ b ∈ moved, k ≤ b.frame)
    (info : PlaybackInfo F) :
    blocksBelow k (moved.foldl (shiftBlock now) info).currentScript.blocks =
      blocksBelow k info.currentScript.blocks := by
  induction moved generalizing info with
  | nil => rfl
  | cons b moved ih =>
    rw [foldl_cons, ih fun c hc => hm c (mem_cons_of_mem _ hc)]
    exact blocksBelow_insertShifted (hm b mem_cons_self) _

variable {info' : PlaybackInfo F}

theorem blocksBelow_editShrink (hs : info.editShrink now = .ok info')
    (h : ∀ b ∈ info.currentScript.blocks.drop info.shrinkSize, k ≤ b.frame) :
    blocksBelow k info'.currentScript.blocks = blocksBelow k info.currentScript.blocks := by
  rcases editShrink_inv hs with rfl | rfl
  · rfl
  · refine below_eq_of_take_eq info.shrinkSize ?_ h ?_
    · show (info.currentScript.blocks.take info.shrinkSize).take info.shrinkSize = _
      rw [take_take, min_self]
    · intro b hb
      have hb' : b ∈ (info.currentScript.blocks.take info.shrinkSize).drop info.shrinkSize := hb
      have hnil : (info.currentScript.blocks.take info.shrinkSize).drop info.shrinkSize = [] := by
        rw [drop_eq_nil_iff, length_take]
        omega
      rw [hnil] at hb'
      cases hb'

theorem blocksBelow_editDelete (hs : info.editDelete now = .ok info') (h : k ≤ info.currentFrame) :
    blocksBelow k info'.currentScript.blocks = blocksBelow k info.currentScript.blocks := by
  obtain ⟨-, rfl⟩ := editDelete_inv hs
  apply below_eraseIdx
  intro b hb
  exact h.trans (le_frame_of_getBlockNumber hb)

theorem blocksBelow_editShift {frames newFrame : Int}
    (hs : info.editShift now frames = .ok (info', newFrame)) (h : k ≤ info.currentFrame)
    (h' : k ≤ info.currentFrame + frames) :
    blocksBelow k info'.currentScript.blocks = blocksBelow k info.currentScript.blocks := by
  obtain ⟨rfl, -, block, hblock, rfl⟩ := editShift_inv hs
  have herase : blocksBelow k (info.currentScript.blocks.eraseIdx (info.getBlockNumber (-1))) =
      blocksBelow k info.currentScript.blocks := by
    apply below_eraseIdx
    intro b hb
    exact h.trans (le_frame_of_getBlockNumber hb)
  rw [← herase]
  exact blocksBelow_insertShifted h' _

theorem blocksBelow_editShiftStack {frames : Int} (hs : info.editShiftStack now frames = .ok info')
    (h : ∀ b ∈ info.stackToShift, k ≤ b.frame) (h' : ∀ b ∈ info.stackToShift, k ≤ b.frame + frames) :
    blocksBelow k info'.currentScript.blocks = blocksBelow k info.currentScript.blocks := by
  obtain ⟨-, rfl⟩ := editShiftStack_inv hs
  have hsplit : info.stackToKeep ++ info.stackToShift.reverse = info.currentScript.blocks := by
    unfold stackToKeep stackToShift
    rw [← reverse_append, takeWhile_append_dropWhile, reverse_reverse]
  rw [blocksBelow_foldl_shiftBlock]
  · show blocksBelow k info.stackToKeep = _
    rw [← hsplit]
    unfold blocksBelow
    rw [below_append, below_eq_nil fun b hb => h b (mem_reverse.mp hb), append_nil]
  · intro b hb
    obtain ⟨c, hc, rfl⟩ := mem_map.mp hb
    exact h' c hc

theorem getBlockForFrame_spec {frame : Int} {i : ℕ}
    (hs : info.getBlockForFrame frame = some (info', i)) :
    (∀ k ≤ info.frameOrCurrent frame,
      blocksBelow k info'.currentScript.blocks = blocksBelow k info.currentScript.blocks) ∧
    (∀ b, info'.currentScript.blocks[i]? = some b → info.frameOrCurrent frame ≤ b.frame) ∧
    info'.currentFrame = info.currentFrame := by
  rcases getBlockForFrame_inv hs with ⟨-, rfl, rfl⟩ | ⟨-, hadd⟩
  · refine ⟨fun _ _ => rfl, ?_, rfl⟩
    intro b hb
    have hle := le_frame_of_getBlockNumber hb
    rw [frameOrCurrent_frameOrCurrent] at hle
    exact hle
  · obtain ⟨rfl, rfl⟩ := Prod.mk.inj hadd
    refine ⟨?_, ?_, rfl⟩
    · intro k hk
      unfold withBlocks blocksBelow
      apply below_insertIdx
      exact hk
    · intro b hb
      have hb' : (info.currentScript.blocks.insertIdx _ _)[_]? = some b := hb
      rw [getElem?_insertIdx_self, if_pos findIdx_le_length] at hb'
      rw [← Option.some.inj hb']

end PlaybackInfo

end TASQuake
