import TASQuake.Lib.KeyedList
import TASQuake.Model.Script

/-!
# Looking up a block by halving

The binary search of `GetBlockIndex` stops at the first midpoint whose block is on the frame that it
looks for, even if that is not the first block on the frame.  Where it stops depends on the number
of blocks and on the indices of the blocks on the frame only (`firstMidpoint`).
-/

namespace TASQuake.Analysis.BlockLookup

open Lib TASScript

variable {F : Type} {self : TASScript F} {frame : Int}

/-- The first midpoint of the halvings of `low..high` that is one of `first..behind - 1`. -/
def firstMidpoint (first behind : ℕ) : ℕ → ℕ → ℕ → Option ℕ
  | 0, _, _ => none
  | fuel + 1, low, high =>
    if low + 1 < high then
      let mid := (low + high) / 2
      if mid < first then firstMidpoint first behind fuel mid high
      else if mid < behind then some mid
      else firstMidpoint first behind fuel low mid
    else none

section Sorted

variable (hs : KeySorted FrameBlock.frame self.blocks)
include hs

theorem frameAt_lt_iff {i : ℕ} (hi : i < self.blocks.length) (frame : Int) :
    self.frameAt i < frame ↔ i < self.getBlockIndex frame := by
  have hframe : self.frameAt i = self.blocks[i].frame := by
    unfold frameAt
    rw [List.getElem?_eq_getElem hi]
    rfl
  rw [hframe]
  constructor
  · intro hlt
    by_contra hle
    have hfound : self.getBlockIndex frame < self.blocks.length := by omega
    have hat := of_decide_eq_true (List.findIdx_getElem (w := hfound))
    have hmono := hs.getElem_le (not_lt.mp hle) hi
    exact absurd (hat.trans hmono) (not_le.mpr hlt)
  · intro hlt
    exact not_le.mp (of_decide_eq_false (List.not_of_lt_findIdx hlt))

theorem getBlockIndex_le_succ (frame : Int) :
    self.getBlockIndex frame ≤ self.getBlockIndex (frame + 1) := by
  by_contra hlt
  have hle : self.getBlockIndex frame ≤ self.blocks.length := List.findIdx_le_length
  have hi : self.getBlockIndex (frame + 1) < self.blocks.length := by omega
  have hbelow := (frameAt_lt_iff hs hi frame).mpr (not_le.mp hlt)
  have hat := (frameAt_lt_iff hs hi (frame + 1)).mp (by omega)
  exact absurd hat (lt_irrefl _)

/-- **The loop** ends, and the index after it is the first midpoint on the frame, or the index of
the first block at or after the frame if no midpoint is on it. -/
theorem exists_bisectLoop {fuel low high : ℕ} (hlow : low = 0 ∨ low < self.getBlockIndex frame)
    (hhigh : self.getBlockIndex frame ≤ high) (hle : high ≤ self.blocks.length) (hlt : low < high)
    (hfuel : high - low ≤ fuel) :
    ∃ r, self.bisectLoop frame fuel low high = some r ∧
      (if self.frameAt r < frame then r + 1 else r) =
        (firstMidpoint (self.getBlockIndex frame) (self.getBlockIndex (frame + 1)) fuel low
          high).getD (self.getBlockIndex frame) := by
  induction fuel generalizing low high with
  | zero => omega
  | succ fuel ih =>
    unfold bisectLoop firstMidpoint
    by_cases hgo : low + 1 < high
    · have hmid : (low + high) / 2 < self.blocks.length := by omega
      have hbelow := frameAt_lt_iff hs hmid frame
      have hbehind := frameAt_lt_iff hs hmid (frame + 1)
      have horder := getBlockIndex_le_succ hs frame
      rw [if_pos (by omega), if_pos hgo]
      dsimp only
      by_cases hfirst : (low + high) / 2 < self.getBlockIndex frame
      · have hframe := hbelow.mpr hfirst
        rw [if_neg (by omega), if_neg (by omega), if_pos hfirst]
        exact ih (.inr hfirst) hhigh hle (by omega) (by omega)
      · have hframe := hbelow.not.mpr hfirst
        by_cases hon : (low + high) / 2 < self.getBlockIndex (frame + 1)
        · have hframe' := hbehind.mpr hon
          rw [if_pos (by omega), if_neg hfirst, if_pos hon]
          exact ⟨_, rfl, if_neg hframe⟩
        · have hframe' := hbehind.not.mpr hon
          rw [if_neg (by omega), if_pos (by omega), if_neg hfirst, if_neg hon]
          exact ih hlow (by omega) (by omega) (by omega) (by omega)
    · rw [if_neg (by omega), if_neg hgo]
      refine ⟨low, rfl, ?_⟩
      have hframe := frameAt_lt_iff hs (show low < self.blocks.length by omega) frame
      show _ = self.getBlockIndex frame
      split
      · have := hframe.mp ‹_›
        omega
      · have := hframe.not.mp ‹_›
        omega

/-- The cached number is taken exactly if it is that of the block looked for. -/
theorem cached_iff {prev : Int} :
    (0 ≤ prev ∧ prev.toNat < self.blocks.length ∧ frame ≤ self.frameAt prev.toNat ∧
      (prev.toNat = 0 ∨ self.frameAt (prev.toNat - 1) < frame)) ↔
      prev = self.getBlockIndex frame ∧ self.getBlockIndex frame < self.blocks.length := by
  constructor
  · rintro ⟨hnonneg, hlt, hat, hbefore⟩
    have hge := (frameAt_lt_iff hs hlt frame).not.mp (not_lt.mpr hat)
    have hle : prev.toNat ≤ self.getBlockIndex frame := by
      rcases hbefore with hzero | hbefore
      · omega
      · have := (frameAt_lt_iff hs (by omega) frame).mp hbefore
        omega
    omega
  · rintro ⟨rfl, hlt⟩
    have hat := (frameAt_lt_iff hs hlt frame).not.mpr (lt_irrefl _)
    refine ⟨Int.natCast_nonneg _, hlt, not_lt.mp hat, ?_⟩
    by_cases hzero : self.getBlockIndex frame = 0
    · exact .inl hzero
    · exact .inr ((frameAt_lt_iff hs (by omega) frame).mpr (by omega))

end Sorted

/-- **The binary search gives the index of the linear search**, for a script whose frames do not
decrease, exactly if the cached number is that of the block looked for, or no midpoint is on the
frame before the first block on it is. -/
theorem binary_lookup_eq_linear_iff (self : TASScript F)
    (hs : KeySorted FrameBlock.frame self.blocks) (prevBlockNumber frame : Int) :
    ∃ index prev, self.getBlockIndexBinary prevBlockNumber frame = some (index, prev) ∧
      (index = self.getBlockIndex frame ↔
        (prevBlockNumber = self.getBlockIndex frame ∧
          self.getBlockIndex frame < self.blocks.length) ∨
        ∀ mid, firstMidpoint (self.getBlockIndex frame) (self.getBlockIndex (frame + 1))
          self.blocks.length 0 self.blocks.length = some mid → mid = self.getBlockIndex frame) := by
  have hbound : self.getBlockIndex frame ≤ self.blocks.length := List.findIdx_le_length
  unfold getBlockIndexBinary
  dsimp only
  by_cases hzero : self.blocks.length = 0
  · rw [if_pos hzero]
    refine ⟨_, _, rfl, iff_of_true (by omega) (.inr fun mid hmid => ?_)⟩
    rw [hzero] at hmid
    cases hmid
  · rw [if_neg hzero, ← cached_iff hs]
    split
    · next hcached =>
      have hprev := ((cached_iff hs).mp hcached).1
      exact ⟨_, _, rfl, iff_of_true (by omega) (.inl hcached)⟩
    · next hcached =>
      have hfuel : self.blocks.length - 0 ≤ self.blocks.length := Nat.sub_le _ _
      obtain ⟨r, hloop, hindex⟩ := exists_bisectLoop hs (.inl rfl) hbound le_rfl
        (Nat.pos_of_ne_zero hzero) hfuel
      rw [hloop, or_iff_right hcached]
      refine ⟨_, _, rfl, ?_⟩
      rw [hindex]
      cases firstMidpoint (self.getBlockIndex frame) (self.getBlockIndex (frame + 1))
          self.blocks.length 0 self.blocks.length with
      | none => exact iff_of_true rfl nofun
      | some mid => exact ⟨fun h m hm => Option.some.inj hm ▸ h, fun h => h mid rfl⟩

/-- A script of blocks on given frames. -/
def onFrames (frames : List Int) : TASScript Int :=
  { blocks := frames.map fun frame => { frame := frame } }

theorem binary_lookup_eq_linear_distinct :
    (onFrames [0, 5, 9]).getBlockIndexBinary 0 5 = some (1, 1) ∧
      (1 : ℕ) = (onFrames [0, 5, 9]).getBlockIndex 5 := by
  obtain ⟨index, prev, hfound, hiff⟩ :=
    binary_lookup_eq_linear_iff (onFrames [0, 5, 9]) (by unfold KeySorted; decide) 0 5
  cases hfound.symm.trans (show (onFrames [0, 5, 9]).getBlockIndexBinary 0 5 = some (1, 1) by decide)
  exact ⟨hfound, hiff.mpr (.inr (by decide))⟩

/-- With two blocks on frame 5 the second one is found. -/
theorem binary_lookup_skips_first :
    KeySorted FrameBlock.frame (onFrames [0, 5, 5, 9]).blocks ∧
      (onFrames [0, 5, 5, 9]).getBlockIndexBinary 0 5 = some (2, 2) ∧
      (onFrames [0, 5, 5, 9]).getBlockIndex 5 = 1 := by
  refine ⟨?_, by decide, by decide⟩
  unfold KeySorted
  decide

end TASQuake.Analysis.BlockLookup
