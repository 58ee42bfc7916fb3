import TASQuake.Model.Searchers
import Mathlib.Data.Rat.Floor
import Mathlib.Tactic.Linarith

/-!
# Doubles as exact rationals

The arithmetic of the optimizer without rounding: floats and doubles are rational numbers.
The distance of two positions is not rational and stays an argument.

`RandomInRange` is the one property of the arithmetic that the order of a script depends on: a
random number between two integers, truncated, is still between them.
-/

namespace TASQuake

open MutatorArith Int

/-- Truncated to an integer, `Random` does not leave the interval, in whichever order its ends
are given. -/
def MutatorArith.RandomInRange {F R : Type} (ops : MutatorArith F R) : Prop :=
  ∀ (lo hi : Int) (rng : Draws),
    min lo hi ≤ ops.trunc (ops.random (ops.ofInt lo) (ops.ofInt hi) rng).1 ∧
      ops.trunc (ops.random (ops.ofInt lo) (ops.ofInt hi) rng).1 ≤ max lo hi

/-- Some outcomes make `Random` reach the upper end of its interval and stay in the lower half
of the unit interval. -/
structure MutatorArith.RandomReachesEnds {F R : Type} [LinearOrder R] (ops : MutatorArith F R) :
    Prop where
  reachesHigh : ∃ top : ℕ, ∀ (lo hi : Int) (rng : Draws),
    ops.trunc (ops.random (ops.ofInt lo) (ops.ofInt hi) (top :: rng)).1 = hi
  reachesLowHalf : ∃ bottom : ℕ, ∀ rng : Draws,
    ops.randomAbove (ops.frac 1 2) (bottom :: rng) = (false, rng)

/-- Rounding towards zero. -/
def truncate (q : ℚ) : Int := if 0 ≤ q then ⌊q⌋ else ⌈q⌉

theorem le_truncate {n : Int} {q : ℚ} (h : (n : ℚ) ≤ q) : n ≤ truncate q := by
  unfold truncate
  split
  · exact le_floor.mpr h
  · exact cast_le.mp (h.trans (le_ceil q))

theorem truncate_le {n : Int} {q : ℚ} (h : q ≤ (n : ℚ)) : truncate q ≤ n := by
  unfold truncate
  split
  · exact cast_le.mp ((floor_le q).trans h)
  · exact ceil_le.mpr h

theorem abs_sub_truncate_lt (q : ℚ) : |q - truncate q| < 1 := by
  unfold truncate
  rw [abs_lt]
  split
  · have hle := floor_le q
    have hlt := lt_floor_add_one q
    constructor <;> linarith
  · have hle := le_ceil q
    have hlt := ceil_lt_add_one q
    constructor <;> linarith

/-- The arithmetic of exact rationals; an output of `m_RNG` has 32 bits, and `pi` is the double
nearest to π. -/
@[simps ofInt add sub neg div abs unit mul toFloat ofFloat]
def rationalArith (distance : Vec ℚ → Vec ℚ → ℚ) : MutatorArith ℚ ℚ :=
  { ofInt := fun n => n
    add := fun a b => a + b
    sub := fun a b => a - b
    neg := fun a => -a
    div := fun a b => a / b
    abs := fun a => |a|
    lowest := -((2 ^ 53 - 1) * 2 ^ 971)
    distance := distance
    unit := fun n => ((n % 2 ^ 32 : ℕ) : ℚ) / (2 ^ 32 - 1)
    mul := fun a b => a * b
    fmod := fun a b => a - b * truncate (a / b)
    pi := 884279719003555 / 281474976710656
    trunc := truncate
    toFloat := fun a => a
    ofFloat := fun a => a }

section Operations

variable (distance : Vec ℚ → Vec ℚ → ℚ)

@[simp] theorem rationalArith_frac (n d : Int) : (rationalArith distance).frac n d = n / d := rfl

/-- The toss of a coin. -/
theorem randomAbove_half (r : ℕ) (rng : Draws) :
    (rationalArith distance).randomAbove ((rationalArith distance).frac 1 2) (r :: rng) =
      (decide (1 / 2 < ((r % 2 ^ 32 : ℕ) : ℚ) / (2 ^ 32 - 1)), rng) := by
  unfold randomAbove random
  simp only [rationalArith_frac, rationalArith_ofInt, rationalArith_add, rationalArith_mul,
    rationalArith_sub, rationalArith_unit, cast_zero, cast_one, cast_ofNat, sub_zero,
    one_mul, zero_add]
  rfl

theorem rationalArith_pi_pos : 0 < (rationalArith distance).pi := by
  show (0 : ℚ) < 884279719003555 / 281474976710656
  norm_num

/-- An angle in radians is brought into the half turn to either side. -/
theorem abs_normalizeRad_le (a : ℚ) :
    |(rationalArith distance).normalizeRad a| ≤ (rationalArith distance).pi := by
  have hpi := rationalArith_pi_pos distance
  unfold normalizeRad
  generalize (rationalArith distance).pi = pi at hpi
  have hmod : |(rationalArith distance).fmod a (pi * 2)| < pi * 2 := by
    have hturn : (0 : ℚ) < pi * 2 := by linarith
    show |a - pi * 2 * truncate (a / (pi * 2))| < pi * 2
    have heq : a - pi * 2 * truncate (a / (pi * 2)) =
        pi * 2 * (a / (pi * 2) - truncate (a / (pi * 2))) := by
      rw [mul_sub, mul_div_cancel₀ a hturn.ne']
    rw [heq, abs_mul, abs_of_pos hturn]
    exact mul_lt_of_lt_one_right hturn (abs_sub_truncate_lt _)
  show |if pi ≤ (rationalArith distance).fmod a (pi * 2) then
      (rationalArith distance).fmod a (pi * 2) - pi * 2
    else if (rationalArith distance).fmod a (pi * 2) < -pi then
      (rationalArith distance).fmod a (pi * 2) + pi * 2
    else (rationalArith distance).fmod a (pi * 2)| ≤ pi
  generalize (rationalArith distance).fmod a (pi * 2) = m at hmod
  obtain ⟨hlow, hhigh⟩ := abs_lt.mp hmod
  rw [abs_le]
  split
  · constructor <;> linarith
  · split
    · constructor <;> linarith
    · constructor <;> linarith

end Operations

theorem unit_mem (n : ℕ) :
    (0 : ℚ) ≤ ((n % 2 ^ 32 : ℕ) : ℚ) / (2 ^ 32 - 1) ∧
      ((n % 2 ^ 32 : ℕ) : ℚ) / (2 ^ 32 - 1) ≤ 1 := by
  have hlt : n % 2 ^ 32 ≤ 2 ^ 32 - 1 := Nat.le_sub_one_of_lt (Nat.mod_lt _ (by norm_num))
  have hcast : ((n % 2 ^ 32 : ℕ) : ℚ) ≤ 2 ^ 32 - 1 := by
    have h : ((n % 2 ^ 32 : ℕ) : ℚ) ≤ ((2 ^ 32 - 1 : ℕ) : ℚ) := Nat.cast_le.mpr hlt
    norm_num at h ⊢
    exact h
  constructor
  · exact div_nonneg (Nat.cast_nonneg _) (by norm_num)
  · rw [div_le_one (by norm_num)]
    exact hcast

theorem rationalArith_randomInRange (distance : Vec ℚ → Vec ℚ → ℚ) :
    (rationalArith distance).RandomInRange := by
  intro lo hi rng
  obtain ⟨hzero, hone⟩ := unit_mem (draw rng).1
  show min lo hi ≤ truncate ((lo : ℚ) + ((hi : ℚ) - lo) *
      (((draw rng).1 % 2 ^ 32 : ℕ) / (2 ^ 32 - 1))) ∧
    truncate ((lo : ℚ) + ((hi : ℚ) - lo) * (((draw rng).1 % 2 ^ 32 : ℕ) / (2 ^ 32 - 1))) ≤ max lo hi
  generalize (((draw rng).1 % 2 ^ 32 : ℕ) : ℚ) / (2 ^ 32 - 1) = u at hzero hone
  rcases le_total lo hi with h | h
  · have hq : (lo : ℚ) ≤ hi := cast_le.mpr h
    rw [min_eq_left h, max_eq_right h]
    constructor
    · apply le_truncate
      nlinarith
    · apply truncate_le
      nlinarith
  · have hq : (hi : ℚ) ≤ lo := cast_le.mpr h
    rw [min_eq_right h, max_eq_left h]
    constructor
    · apply le_truncate
      nlinarith
    · apply truncate_le
      nlinarith

theorem rationalArith_randomReachesEnds (distance : Vec ℚ → Vec ℚ → ℚ) :
    (rationalArith distance).RandomReachesEnds := by
  constructor
  · refine ⟨2 ^ 32 - 1, fun lo hi rng => ?_⟩
    show truncate ((lo : ℚ) + ((hi : ℚ) - lo) * (((2 ^ 32 - 1) % 2 ^ 32 : ℕ) / (2 ^ 32 - 1))) = hi
    have hone : (((2 ^ 32 - 1) % 2 ^ 32 : ℕ) : ℚ) / (2 ^ 32 - 1) = 1 := by norm_num
    rw [hone, mul_one, add_sub_cancel]
    exact le_antisymm (truncate_le le_rfl) (le_truncate le_rfl)
  · refine ⟨0, fun rng => ?_⟩
    rw [randomAbove_half]
    norm_num

end TASQuake
