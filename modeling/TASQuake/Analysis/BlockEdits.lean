import TASQuake.Analysis.EditLocality
import TASQuake.Lib.KeyedMap

/-!
# Scripts as maps from frames to blocks

With strictly increasing frames a script is a map from frames to blocks (`blockAt`).  The script
operations write or erase one entry of every block whose frame is among given ones
(`FrameBlock.setConvarOn`, `FrameBlock.setToggleOn`).
-/

namespace TASQuake

open Lib FrameBlock List

variable {F : Type}

/-! ## Values -/

/-- Two values that are the same, or that `==` takes for the same. -/
def Same [BEq F] (a b : F) : Prop := a = b ∨ (a == b) = true

theorem Same.refl [BEq F] (a : F) : Same a a := .inl rfl

theorem Same.symm [BEq F] [PartialEquivBEq F] {a b : F} (h : Same a b) : Same b a :=
  h.imp Eq.symm BEq.symm

theorem Same.trans [BEq F] [PartialEquivBEq F] {a b c : F} (h : Same a b) (h' : Same b c) :
    Same a c := by
  rcases h with rfl | h
  · exact h'
  · rcases h' with rfl | h'
    · exact .inr h
    · exact .inr (PartialEquivBEq.trans h h')

/-! ## Edits of one block -/

theorem isBlank_convars {b : FrameBlock F} (hb : b.isBlank = true) (name : Str) :
    b.convars.find? name = none := by
  rw [(b.isBlank_iff.mp hb).1]
  rfl

theorem isBlank_toggles {b : FrameBlock F} (hb : b.isBlank = true) (name : Str) :
    b.toggles.find? name = none := by
  rw [(b.isBlank_iff.mp hb).2.2]
  rfl

namespace FrameBlock

/-- Write (`some`) or erase (`none`) the entry of a convar, in a block on one of the frames. -/
def setConvarOn (frames : Int → Bool) (name : Str) (value : Option F) (b : FrameBlock F) :
    FrameBlock F :=
  if frames b.frame then
    { b with
      convars := match value with
        | some v => b.convars.put name v
        | none => b.convars.erase name }
  else b

/-- The same for a toggle. -/
def setToggleOn (frames : Int → Bool) (name : Str) (value : Option Bool) (b : FrameBlock F) :
    FrameBlock F :=
  if frames b.frame then
    { b with
      toggles := match value with
        | some v => b.toggles.put name v
        | none => b.toggles.erase name }
  else b

variable (frames : Int → Bool) (name : Str) (b : FrameBlock F)

variable (value : Option F)

@[simp] theorem frame_setConvarOn : (b.setConvarOn frames name value).frame = b.frame := by
  unfold setConvarOn
  split <;> rfl

@[simp] theorem toggles_setConvarOn : (b.setConvarOn frames name value).toggles = b.toggles := by
  unfold setConvarOn
  split <;> rfl

@[simp] theorem commands_setConvarOn : (b.setConvarOn frames name value).commands = b.commands := by
  unfold setConvarOn
  split <;> rfl

theorem find?_setConvarOn (k : Str) :
    (b.setConvarOn frames name value).convars.find? k =
      if frames b.frame = true ∧ k = name then value else b.convars.find? k := by
  unfold setConvarOn
  by_cases hframe : frames b.frame = true
  · simp only [hframe, if_true, true_and]
    cases value with
    | none => exact b.convars.find?_erase name k
    | some v => exact b.convars.find?_put name k v
  · simp [hframe]

@[simp] theorem frame_setToggleOn (value : Option Bool) :
    (b.setToggleOn frames name value).frame = b.frame := by
  unfold setToggleOn
  split <;> rfl

@[simp] theorem convars_setToggleOn (value : Option Bool) :
    (b.setToggleOn frames name value).convars = b.convars := by
  unfold setToggleOn
  split <;> rfl

@[simp] theorem commands_setToggleOn (value : Option Bool) :
    (b.setToggleOn frames name value).commands = b.commands := by
  unfold setToggleOn
  split <;> rfl

theorem find?_setToggleOn (value : Option Bool) (k : Str) :
    (b.setToggleOn frames name value).toggles.find? k =
      if frames b.frame = true ∧ k = name then value else b.toggles.find? k := by
  unfold setToggleOn
  by_cases hframe : frames b.frame = true
  · simp only [hframe, if_true, true_and]
    cases value with
    | none => exact b.toggles.find?_erase name k
    | some v => exact b.toggles.find?_put name k v
  · simp [hframe]

end FrameBlock

/-- The frames of a range. -/
def between (low high : Int) (f : Int) : Bool := decide (low ≤ f) && decide (f ≤ high)

/-- One frame. -/
def only (frame : Int) (f : Int) : Bool := decide (f = frame)

@[simp] theorem between_iff {low high f : Int} :
    between low high f = true ↔ low ≤ f ∧ f ≤ high := by
  simp [between]

@[simp] theorem only_iff {frame f : Int} : only frame f = true ↔ f = frame := by
  simp [only]

/-- The name of a convar that a shot sets. -/
def IsView (name : Str) : Prop := name = str "tas_view_yaw" ∨ name = str "tas_view_pitch"

instance (name : Str) : Decidable (IsView name) := inferInstanceAs (Decidable (_ ∨ _))

/-- Erase the view on some frames and `attack` on others. -/
def FrameBlock.eraseShot (view attack : Int → Bool) (b : FrameBlock F) : FrameBlock F :=
  ((b.setConvarOn view (str "tas_view_yaw") none).setConvarOn view (str "tas_view_pitch") none
    ).setToggleOn attack (str "attack") none

@[simp] theorem FrameBlock.frame_eraseShot (view attack : Int → Bool) (b : FrameBlock F) :
    (b.eraseShot view attack).frame = b.frame := by
  simp [eraseShot]

@[simp] theorem FrameBlock.commands_eraseShot (view attack : Int → Bool) (b : FrameBlock F) :
    (b.eraseShot view attack).commands = b.commands := by
  simp [eraseShot]

/-! ## Edits of a script -/

namespace TASScript

variable (s : TASScript F) (name : Str)

theorem getFrameblock_eq_find? (f : Int) :
    s.getFrameblock f = s.blocks.find? fun b => decide (f ≤ b.frame) := by
  unfold getFrameblock getBlockIndex
  induction s.blocks with
  | nil => rfl
  | cons b blocks ih =>
    rw [findIdx_cons, find?_cons]
    by_cases hb : f ≤ b.frame
    · simp [hb]
    · simpa [hb] using ih

theorem blocks_removeCvarsFromRange (low high : Int) :
    (s.removeCvarsFromRange name low high).blocks =
      s.blocks.map (setConvarOn (between low high) name none) := rfl

theorem blocks_removeTogglesFromRange (low high : Int) :
    (s.removeTogglesFromRange name low high).blocks =
      s.blocks.map (setToggleOn (between low high) name none) := rfl

/-- The frames on which `AddShot` clears the view. -/
def viewWindow (frame turnFrames : Int) : Int → Bool :=
  between (turnFrame frame turnFrames - clearRange) (turnFrame frame turnFrames + clearRange)

/-- The frames on which `AddShot` clears `attack`. -/
def attackWindow (frame : Int) : Int → Bool :=
  between (shootFrame frame - clearRange) (shootOffFrame frame + clearRange)

theorem blocks_clearShotWindow (frame turnFrames : Int) :
    (s.clearShotWindow frame turnFrames).blocks =
      s.blocks.map (eraseShot (viewWindow frame turnFrames) (attackWindow frame)) := by
  unfold clearShotWindow
  dsimp only
  rw [blocks_removeTogglesFromRange, blocks_removeCvarsFromRange, blocks_removeCvarsFromRange,
    map_map, map_map]
  rfl

variable {s} (hs : s.blocks.Pairwise fun a b => a.frame < b.frame) {i : ℕ} {frame : Int}
  (hi : (s.blocks[i]?).map FrameBlock.frame = some frame)

include hs hi

theorem blocks_setConvarAt (value : F) :
    (s.setConvarAt i name value).blocks =
      s.blocks.map (setConvarOn (only frame) name (some value)) := by
  refine (modify_eq_map (nodup_of_strict hs) hi _).trans (map_congr_left fun b _ => ?_)
  simp [setConvarOn, only]

theorem blocks_setToggleAt (value : Bool) :
    (s.setToggleAt i name value).blocks =
      s.blocks.map (setToggleOn (only frame) name (some value)) := by
  refine (modify_eq_map (nodup_of_strict hs) hi _).trans (map_congr_left fun b _ => ?_)
  simp [setToggleOn, only]

end TASScript

theorem pairwise_map_of_frame {blocks : List (FrameBlock F)}
    (hs : blocks.Pairwise fun a b => a.frame < b.frame) {g : FrameBlock F → FrameBlock F}
    (hg : ∀ b, (g b).frame = b.frame) :
    (blocks.map g).Pairwise fun a b => a.frame < b.frame := by
  rw [pairwise_map]
  exact hs.imp fun {a b} hab => by rwa [hg, hg]

/-! ## The map -/

/-- The block on a frame. -/
def blockAt (blocks : List (FrameBlock F)) (g : Int) : Option (FrameBlock F) :=
  entryAt frame g blocks

/-- The entry of a convar on a frame. -/
def convarAt (blocks : List (FrameBlock F)) (g : Int) (name : Str) : Option F :=
  (blockAt blocks g).bind fun b => b.convars.find? name

/-- The entry of a toggle on a frame. -/
def toggleAt (blocks : List (FrameBlock F)) (g : Int) (name : Str) : Option Bool :=
  (blockAt blocks g).bind fun b => b.toggles.find? name

section Map

variable {blocks : List (FrameBlock F)} (hs : blocks.Pairwise fun a b => a.frame < b.frame)

include hs

theorem blockAt_eq_some_iff {g : Int} {b : FrameBlock F} :
    blockAt blocks g = some b ↔ b ∈ blocks ∧ b.frame = g := by
  constructor
  · intro h
    exact ⟨mem_of_entryAt h, key_of_entryAt h⟩
  · rintro ⟨hb, rfl⟩
    exact entryAt_of_mem (nodup_of_strict hs) hb

theorem commandsAt_eq (g : Int) :
    commandsAt blocks g = ((blockAt blocks g).map commands).getD [] := by
  unfold commandsAt
  induction blocks with
  | nil => rfl
  | cons c blocks ih =>
    obtain ⟨hc, hrest⟩ := pairwise_cons.mp hs
    unfold blockAt at ih ⊢
    rw [entryAt_cons]
    by_cases hg : c.frame = g
    · have hnil : blocks.filter (fun b => decide (b.frame = g)) = [] := by
        simpa using fun b hb => hg ▸ (hc b hb).ne'
      rw [filter_cons_of_pos (by simpa using hg), hnil, if_pos hg]
      simp
    · rw [filter_cons_of_neg (by simpa using hg), ih hrest, if_neg hg]

end Map

theorem blockAt_getBlockForInsertion {s : TASScript F}
    (hs : s.blocks.Pairwise fun a b => a.frame < b.frame) (frame : Int) :
    ((s.getBlockForInsertion frame).1.blocks.Pairwise fun a b => a.frame < b.frame) ∧
      ∀ g, blockAt (s.getBlockForInsertion frame).1.blocks g =
        (blockAt s.blocks g).or (if g = frame then some { frame := g } else none) := by
  rcases s.getBlockForInsertion_cases frame with ⟨b, hb, hbf, heq⟩ | ⟨hafter, heq⟩
  · rw [heq]
    refine ⟨hs, fun g => ?_⟩
    by_cases hg : g = frame
    · have hat := (blockAt_eq_some_iff hs).mpr ⟨mem_of_getElem? hb, hbf.trans hg.symm⟩
      rw [hat]
      rfl
    · rw [if_neg hg, Option.or_none]
  · rw [heq]
    dsimp only
    have hsorted : KeySorted FrameBlock.frame s.blocks := hs.imp fun hab => hab.le
    have hle : s.getBlockIndex frame ≤ s.blocks.length := findIdx_le_length
    -- the first block at or after the frame is after it, so no block is on it
    have hfresh : ∀ b ∈ s.blocks, b.frame ≠ frame := by
      intro b hb hbf
      obtain ⟨j, hj, rfl⟩ := getElem_of_mem hb
      have hji : s.getBlockIndex frame ≤ j := by
        by_contra hlt
        have hlow := TASScript.lt_of_lt_getBlockIndex (not_le.mp hlt) (getElem?_eq_getElem hj)
        omega
      have hhigh := hafter _ (getElem?_eq_getElem (by omega))
      have hmono := hsorted.getElem_le hji hj
      omega
    constructor
    · refine strict_of_sorted (hsorted.insertIdx_findIdx ?_ ?_) ?_
      · intro b hb
        exact of_decide_eq_true hb
      · intro b hb
        exact (not_le.mp (of_decide_eq_false hb)).le
      · have hperm := (perm_insertIdx ({ frame := frame } : FrameBlock F) s.blocks hle).map
          FrameBlock.frame
        refine hperm.nodup_iff.mpr (nodup_cons.mpr ⟨?_, nodup_of_strict hs⟩)
        intro hmem
        obtain ⟨b, hb, hbf⟩ := mem_map.mp hmem
        exact hfresh b hb hbf
    · intro g
      unfold blockAt
      rw [entryAt_insertIdx hle hfresh]
      by_cases hg : frame = g
      · subst hg
        rw [if_pos rfl, if_pos rfl, entryAt_eq_none_iff.mpr hfresh]
        rfl
      · rw [if_neg hg, if_neg (Ne.symm hg), Option.or_none]

end TASQuake
