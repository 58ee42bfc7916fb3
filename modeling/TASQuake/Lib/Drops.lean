import Mathlib.Algebra.Order.Group.Defs
import Mathlib.Order.Bounds.Basic
import Mathlib.Order.Lattice

/-!
# The largest drop of a sequence

A running maximum of a sequence is a position whose value no earlier value exceeds.  The scan here
goes once along the sequence, keeps the running maximum, and remembers the running maximum that is
followed by the largest drop.  `scanned_dropScan` says what it has found after any number of steps.
-/

namespace TASQuake.Lib

variable {α : Type} [AddCommGroup α] [LinearOrder α]

/-- A running maximum that is followed by a smaller value. -/
structure DropsAfter (e : ℕ → α) (p : ℕ) : Prop where
  isMax : ∀ j ≤ p, e j ≤ e p
  lt : e (p + 1) < e p

/-- What the scan keeps: the position before the largest drop, the running maximum and the drop. -/
structure DropScan (α : Type) where
  index : ℕ
  maxValue : α
  drop : α

/-- One step: look at the value after position `k`. -/
def DropScan.step (e : ℕ → α) (s : DropScan α) (k : ℕ) : DropScan α :=
  if s.maxValue ≤ e (k + 1) then { s with maxValue := e (k + 1) }
  else if e k = s.maxValue then
    if s.drop < s.maxValue - e (k + 1) then
      { s with index := k, drop := s.maxValue - e (k + 1) }
    else s
  else s

/-- The scan after a number of steps. -/
def dropScan (e : ℕ → α) : ℕ → DropScan α
  | 0 => ⟨0, e 0, 0⟩
  | k + 1 => (dropScan e k).step e k

/-- What has been found in the values up to position `k`. -/
structure Scanned (e : ℕ → α) (k : ℕ) (s : DropScan α) : Prop where
  le_max : ∀ j ≤ k, e j ≤ s.maxValue
  attained : ∃ j ≤ k, e j = s.maxValue
  largest : ∀ p < k, DropsAfter e p → e p - e (p + 1) ≤ s.drop
  found : s.drop = 0 ∨
    (s.index < k ∧ DropsAfter e s.index ∧ s.drop = e s.index - e (s.index + 1))

section Scan

variable {e : ℕ → α} {k : ℕ} {s : DropScan α}

/-- A value that is not below the maximum is the new maximum, and no drop. -/
theorem Scanned.rise (h : Scanned e k s) (hle : s.maxValue ≤ e (k + 1)) :
    Scanned e (k + 1) { s with maxValue := e (k + 1) } := by
  refine ⟨?_, ⟨k + 1, le_rfl, rfl⟩, ?_, ?_⟩
  · intro j hj
    rcases Nat.lt_or_eq_of_le hj with hlt | rfl
    · exact (h.le_max j (by omega)).trans hle
    · exact le_rfl
  · intro p hp hdrop
    rcases Nat.lt_or_eq_of_le (Nat.le_of_lt_succ hp) with hlt | rfl
    · exact h.largest p hlt hdrop
    · exact absurd hdrop.lt (not_lt.mpr ((h.le_max p le_rfl).trans hle))
  · rcases h.found with hzero | ⟨hlt, hdrop, heq⟩
    · exact .inl hzero
    · exact .inr ⟨hlt.trans (Nat.lt_succ_self k), hdrop, heq⟩

/-- A value below the maximum leaves the maximum as it is. -/
theorem Scanned.fall (h : Scanned e k s) (hlt : e (k + 1) < s.maxValue) {t : DropScan α}
    (hmax : t.maxValue = s.maxValue) (hle : s.drop ≤ t.drop)
    (hnew : DropsAfter e k → e k - e (k + 1) ≤ t.drop)
    (hfound : t.drop = 0 ∨
      (t.index < k + 1 ∧ DropsAfter e t.index ∧ t.drop = e t.index - e (t.index + 1))) :
    Scanned e (k + 1) t := by
  refine ⟨?_, ?_, ?_, hfound⟩
  · intro j hj
    rw [hmax]
    rcases Nat.lt_or_eq_of_le hj with hj | rfl
    · exact h.le_max j (by omega)
    · exact hlt.le
  · obtain ⟨j, hj, heq⟩ := h.attained
    exact ⟨j, by omega, heq.trans hmax.symm⟩
  · intro p hp hdrop
    rcases Nat.lt_or_eq_of_le (Nat.le_of_lt_succ hp) with hp | rfl
    · exact (h.largest p hp hdrop).trans hle
    · exact hnew hdrop

theorem Scanned.step (h : Scanned e k s) : Scanned e (k + 1) (s.step e k) := by
  have hold : s.drop = 0 ∨
      (s.index < k + 1 ∧ DropsAfter e s.index ∧ s.drop = e s.index - e (s.index + 1)) :=
    h.found.imp_right fun hf => ⟨by omega, hf.2⟩
  unfold DropScan.step
  split
  · next hle => exact h.rise hle
  · next hlt =>
    have hlt := not_le.mp hlt
    split
    · next hmax =>
      -- position `k` is a running maximum, and the value after it is smaller
      have hdrop : DropsAfter e k := ⟨fun j hj => hmax ▸ h.le_max j hj, hmax ▸ hlt⟩
      split
      · next hbigger =>
        refine h.fall hlt rfl hbigger.le (fun _ => ?_) (.inr ⟨Nat.lt_succ_self k, hdrop, ?_⟩)
        · rw [hmax]
        · rw [hmax]
      · next hsmaller =>
        refine h.fall hlt rfl le_rfl (fun _ => ?_) hold
        rw [hmax]
        exact not_lt.mp hsmaller
    · next hbelow =>
      -- some earlier value is larger than the one at `k`
      refine h.fall hlt rfl le_rfl (fun hdrop => ?_) hold
      obtain ⟨j, hj, heq⟩ := h.attained
      exact absurd (le_antisymm (h.le_max k le_rfl) (heq ▸ hdrop.isMax j hj)) hbelow

theorem scanned_dropScan (e : ℕ → α) (k : ℕ) : Scanned e k (dropScan e k) := by
  induction k with
  | zero =>
    refine ⟨fun j hj => ?_, ⟨0, le_rfl, rfl⟩, fun p hp => absurd hp (Nat.not_lt_zero p), .inl rfl⟩
    rw [Nat.le_zero.mp hj]
    exact le_rfl
  | succ k ih => exact ih.step

/-- A drop of positive size has been found somewhere. -/
theorem Scanned.dropsAfter_of_pos (h : Scanned e k s) (hpos : 0 < s.drop) :
    s.index < k ∧ DropsAfter e s.index ∧ s.drop = e s.index - e (s.index + 1) :=
  h.found.resolve_left hpos.ne'

theorem Scanned.nonneg [IsOrderedAddMonoid α] (h : Scanned e k s) : 0 ≤ s.drop := by
  rcases h.found with hzero | ⟨-, hdrop, heq⟩
  · exact hzero.ge
  · rw [heq]
    exact sub_nonneg.mpr hdrop.lt.le

/-- The drop found is the largest one, or 0 if there is none. -/
theorem Scanned.isGreatest [IsOrderedAddMonoid α] (h : Scanned e k s) :
    IsGreatest (insert 0 {x | ∃ p < k, DropsAfter e p ∧ x = e p - e (p + 1)}) s.drop := by
  constructor
  · rcases h.found with hzero | ⟨hlt, hdrop, heq⟩
    · exact .inl hzero
    · exact .inr ⟨s.index, hlt, hdrop, heq⟩
  · rintro x (rfl | ⟨p, hp, hdrop, rfl⟩)
    · exact h.nonneg
    · exact h.largest p hp hdrop

end Scan

end TASQuake.Lib
