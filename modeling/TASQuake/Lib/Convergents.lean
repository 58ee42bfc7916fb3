import Mathlib.Algebra.Order.Ring.Int
import Mathlib.Tactic.LinearCombination
import Mathlib.Tactic.Linarith
import Mathlib.Tactic.Ring

/-!
# Convergents of a fraction

Euclid's algorithm on two integers `D` and `N` with the numerators and denominators that it goes
through.  `p / q` and `p' / q'` are the last two of them, `r` and `r'` the last two remainders.
Every step keeps the four equations of `Convergents`; the denominators are bounded by `den`, and the
errors are the remainders.
-/

namespace TASQuake.Lib

/-- Two convergents of `D / N` in a row, and the remainders that belong to them. -/
structure Convergents (D N p q r p' q' r' : Int) : Prop where
  num : p * r' + p' * r = D
  den : q * r' + q' * r = N
  error : (D * q - N * p = r ∧ D * q' - N * p' = -r') ∨ (D * q - N * p = -r ∧ D * q' - N * p' = r')
  p_nonneg : 0 ≤ p
  q_pos : 0 < q
  p_nonneg' : 0 ≤ p'
  q_nonneg' : 0 ≤ q'
  r_nonneg : 0 ≤ r
  r_lt : r < r'

namespace Convergents

variable {D N p q r p' q' r' : Int}

/-- The integral part. -/
theorem start (hD : 0 ≤ D) (hN : 0 < N) : Convergents D N (D / N) 1 (D % N) 1 0 N := by
  have hdiv := Int.mul_ediv_add_emod D N
  refine ⟨?_, ?_, .inl ⟨?_, ?_⟩, Int.ediv_nonneg hD hN.le, by norm_num, by norm_num, le_rfl,
    Int.emod_nonneg D hN.ne', Int.emod_lt_of_pos D hN⟩
  · linear_combination hdiv
  · ring
  · linear_combination -hdiv
  · ring

section

variable (h : Convergents D N p q r p' q' r')
include h

/-- One division. -/
theorem next (hr : r ≠ 0) :
    Convergents D N (r' / r * p + p') (r' / r * q + q') (r' % r) p q r := by
  have hpos : 0 < r := lt_of_le_of_ne h.r_nonneg hr.symm
  have hdiv := Int.mul_ediv_add_emod r' r
  have hquot : 0 < r' / r := Int.le_ediv_of_mul_le hpos (by linarith [h.r_lt])
  refine ⟨?_, ?_, ?_, add_nonneg (mul_nonneg hquot.le h.p_nonneg) h.p_nonneg',
    add_pos_of_pos_of_nonneg (mul_pos hquot h.q_pos) h.q_nonneg', h.p_nonneg, h.q_pos.le,
    Int.emod_nonneg r' hr, Int.emod_lt_of_pos r' hpos⟩
  · linear_combination h.num + p * hdiv
  · linear_combination h.den + q * hdiv
  · rcases h.error with ⟨herr, herr'⟩ | ⟨herr, herr'⟩
    · refine .inr ⟨?_, herr⟩
      linear_combination (r' / r) * herr + herr' + hdiv
    · refine .inl ⟨?_, herr⟩
      linear_combination (r' / r) * herr + herr' - hdiv

theorem r_pos' : 0 < r' := lt_of_le_of_lt h.r_nonneg h.r_lt

/-- The next remainder bounds the denominator. -/
theorem den_mul_le : q * r' ≤ N := by
  have hrest := mul_nonneg h.q_nonneg' h.r_nonneg
  have hden := h.den
  linarith

theorem den_le : q ≤ N := by
  have hone : q * 1 ≤ q * r' := mul_le_mul_of_nonneg_left h.r_pos' h.q_pos.le
  have hle := h.den_mul_le
  linarith

theorem r_le' : r' ≤ N := by
  have hone := mul_le_mul_of_nonneg_right h.q_pos h.r_pos'.le
  have hle := h.den_mul_le
  linarith

/-- The convergents of a fraction that does not exceed 1 do not exceed 1. -/
theorem num_le_den (hDN : D ≤ N) : p ≤ q := by
  have hscaled : D * q ≤ N * q := mul_le_mul_of_nonneg_right hDN h.q_pos.le
  have hr : r < N := h.r_lt.trans_le h.r_le'
  have hN : 0 < N := lt_of_le_of_lt h.r_nonneg hr
  have hlt : N * p < N * (q + 1) := by
    rcases h.error with ⟨herr, -⟩ | ⟨herr, -⟩
    · have hnonneg := h.r_nonneg
      linarith
    · linarith
  exact Int.lt_add_one_iff.mp (lt_of_mul_lt_mul_left hlt hN.le)

/-- A convergent that is not the first has a remainder below `N` before it. -/
theorem r_lt_of_one_lt (hq : 1 < q) : r' < N := by
  have hpos := h.r_pos'
  have htwo : 1 * r' < q * r' := mul_lt_mul_of_pos_right hq hpos
  have hle := h.den_mul_le
  linarith

/-- The convergent before has a denominator then. -/
theorem den_pos (hr : r' < N) : 0 < q' := by
  rcases h.q_nonneg'.lt_or_eq with hpos | hzero
  · exact hpos
  · exfalso
    have hr' := h.r_pos'
    have herr : N * p' = r' := by
      rcases h.error with ⟨-, herr⟩ | ⟨-, herr⟩
      · rw [← hzero] at herr
        linarith
      · rw [← hzero] at herr
        have hnonneg : 0 ≤ N * p' := mul_nonneg (hr'.trans hr).le h.p_nonneg'
        linarith
    have hp : 0 < p' := by
      rcases h.p_nonneg'.lt_or_eq with hp | hp
      · exact hp
      · rw [← hp] at herr
        linarith
    have hN : N * 1 ≤ N * p' := mul_le_mul_of_nonneg_left hp (hr'.trans hr).le
    linarith

theorem num_le_den' (hDN : D ≤ N) (hr : r' < N) :
    p' ≤ q' := by
  have hscaled := mul_le_mul_of_nonneg_right hDN h.q_nonneg'
  have hpos := h.r_pos'
  have hlt : N * p' < N * (q' + 1) := by
    rcases h.error with ⟨-, herr⟩ | ⟨-, herr⟩
    · linarith
    · linarith
  exact Int.lt_add_one_iff.mp (lt_of_mul_lt_mul_left hlt (hpos.trans hr).le)

/-- The error of a convergent is its remainder. -/
theorem abs_error : |D * q' - N * p'| = r' := by
  rcases h.error with ⟨-, herr⟩ | ⟨-, herr⟩
  · rw [herr, abs_neg, abs_of_pos h.r_pos']
  · rw [herr, abs_of_pos h.r_pos']

/-- The next denominator bounds the error, and so does everything below it. -/
theorem abs_error_mul_lt {m : Int} (hm : m < q) :
    |D * q' - N * p'| * m < N := by
  rw [h.abs_error]
  calc r' * m < r' * q := mul_lt_mul_of_pos_left hm h.r_pos'
    _ = q * r' := mul_comm _ _
    _ ≤ N := h.den_mul_le

end

end Convergents

end TASQuake.Lib
