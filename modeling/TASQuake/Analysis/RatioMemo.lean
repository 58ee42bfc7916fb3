import TASQuake.Lib.Memo
import TASQuake.Model.Ratio
import Mathlib.Data.Rat.Floor
import Mathlib.Tactic.Linarith

/-!
# The cache of `ApproximateRatioWithIntegers`

The function for three numbers is a memo of one entry whose key lacks `max_int`.  Of doubles it is
used that `==` is symmetric and transitive and identifies numbers only that have the same absolute
value and compare with zero in the same way (`RatioOps.Lawful`); so it is with a NaN and two zeros.
-/

namespace TASQuake.Analysis.RatioMemo

open Lib RatioCache RatioOps Memo

variable {R : Type}

/-- What is used of doubles. -/
structure Lawful (ops : RatioOps R) : Prop where
  eq_symm : ∀ a b, ops.eq a b = true → ops.eq b a = true
  eq_trans : ∀ a b c, ops.eq a b = true → ops.eq b c = true → ops.eq a c = true
  abs_congr : ∀ a b, ops.eq a b = true → ops.abs a = ops.abs b
  nonneg_congr : ∀ a b, ops.eq a b = true → ops.nonneg a = ops.nonneg b
  abs_zero : ops.abs (ops.ofInt 0) = ops.ofInt 0
  zero_le_epsilon : ops.lt ops.epsilon (ops.ofInt 0) = false

section Numbers

variable {ops : RatioOps R}

theorem sameNumbers_iff {a b : Vec R} :
    ops.sameNumbers a b = true ↔
      ops.eq a.x b.x = true ∧ ops.eq a.y b.y = true ∧ ops.eq a.z b.z = true := by
  unfold sameNumbers
  rw [Bool.and_eq_true, Bool.and_eq_true, and_assoc]

theorem sameNumbers_symm (h : Lawful ops) (a b : Vec R) (hab : ops.sameNumbers a b = true) :
    ops.sameNumbers b a = true := by
  obtain ⟨hx, hy, hz⟩ := sameNumbers_iff.mp hab
  exact sameNumbers_iff.mpr ⟨h.eq_symm _ _ hx, h.eq_symm _ _ hy, h.eq_symm _ _ hz⟩

theorem sameNumbers_trans (h : Lawful ops) (a b c : Vec R) (hab : ops.sameNumbers a b = true)
    (hbc : ops.sameNumbers b c = true) : ops.sameNumbers a c = true := by
  obtain ⟨hx, hy, hz⟩ := sameNumbers_iff.mp hab
  obtain ⟨hx', hy', hz'⟩ := sameNumbers_iff.mp hbc
  exact sameNumbers_iff.mpr
    ⟨h.eq_trans _ _ _ hx hx', h.eq_trans _ _ _ hy hy', h.eq_trans _ _ _ hz hz'⟩

theorem approximateNumbers_congr (h : Lawful ops) {a b : Vec R}
    (hab : ops.sameNumbers a b = true) (maxInt : Int) :
    ops.approximateNumbers a maxInt = ops.approximateNumbers b maxInt := by
  obtain ⟨hx, hy, hz⟩ := sameNumbers_iff.mp hab
  have hsign : ∀ u v, ops.eq u v = true → ops.sign u = ops.sign v := by
    intro u v huv
    unfold sign
    rw [h.nonneg_congr u v huv]
  unfold approximateNumbers
  simp only [h.abs_congr _ _ hx, h.abs_congr _ _ hy, h.abs_congr _ _ hz, hsign _ _ hx, hsign _ _ hy,
    hsign _ _ hz]

theorem approximateNumbers_zero (h : Lawful ops) (maxInt : Int) :
    ops.approximateNumbers (init ops).prevNumbers maxInt =
      (init ops).cachedNumbers := by
  have hbiggest : ops.biggest ⟨ops.ofInt 0, ops.ofInt 0, ops.ofInt 0⟩ = none := by
    unfold biggest
    simp [h.abs_zero, h.zero_le_epsilon]
  unfold approximateNumbers init
  simp only [h.abs_zero, hbiggest]

end Numbers

/-! ## Sequences of calls -/

/-- What the calls of a thread return, one after the other. -/
def returned (ops : RatioOps R) : RatioCache R → List (Vec R × Int) → List (Vec R)
  | _, [] => []
  | cache, (numbers, maxInt) :: calls =>
    let (cache, result) := cache.approximate ops numbers maxInt
    result :: returned ops cache calls

/-- The cache as a memo. -/
def memo (cache : RatioCache R) : Memo (Vec R) (Vec R) := ⟨cache.prevNumbers, cache.cachedNumbers⟩

theorem returned_eq_results (ops : RatioOps R) (cache : RatioCache R) (calls : List (Vec R × Int)) :
    returned ops cache calls =
      results ops.sameNumbers ops.approximateNumbers (memo cache) calls := by
  induction calls generalizing cache with
  | nil => rfl
  | cons c calls ih =>
    have hcall : call ops.sameNumbers ops.approximateNumbers (memo cache) c.1 c.2 =
        (memo (cache.approximate ops c.1 c.2).1, (cache.approximate ops c.1 c.2).2) := by
      unfold call approximate memo
      cases ops.sameNumbers cache.prevNumbers c.1
      · rfl
      · rfl
    rw [results, hcall, ← ih]
    rfl

/-- **The cached approximation is the uncached one** in a sequence of calls exactly if two calls in a
row with the same numbers have values of `max_int` with the same result; so it is in every sequence in
which they have the same `max_int`. -/
theorem cached_ratio_eq_uncached_iff (ops : RatioOps R) (h : Lawful ops)
    (calls : List (Vec R × Int)) :
    (returned ops (init ops) calls = calls.map (fun c => ops.approximateNumbers c.1 c.2) ↔
      calls.IsChain fun c d => ops.sameNumbers c.1 d.1 = true →
        ops.approximateNumbers c.1 c.2 = ops.approximateNumbers d.1 d.2) ∧
    ((calls.IsChain fun c d => ops.sameNumbers c.1 d.1 = true → c.2 = d.2) →
      returned ops (init ops) calls =
        calls.map fun c => ops.approximateNumbers c.1 c.2) := by
  have hiff : returned ops (init ops) calls =
      calls.map (fun c => ops.approximateNumbers c.1 c.2) ↔
        calls.IsChain (Agrees ops.sameNumbers ops.approximateNumbers) := by
    rw [returned_eq_results]
    refine results_eq_map_iff (sameNumbers_symm h) (sameNumbers_trans h)
      (fun numbers maxInt hsame => ?_) calls
    exact (approximateNumbers_zero h maxInt).symm.trans (approximateNumbers_congr h hsame maxInt)
  refine ⟨hiff, fun hchain => hiff.mpr (hchain.imp fun c d hmax hsame => ?_)⟩
  rw [hmax hsame]
  exact approximateNumbers_congr h hsame d.2

/-! ## Exact rationals -/

/-- The nearest integer, the even one of two. -/
def nearest (x : ℚ) : Int :=
  if x - ⌊x⌋ < 1 / 2 then ⌊x⌋
  else if 1 / 2 < x - ⌊x⌋ then ⌊x⌋ + 1
  else if ⌊x⌋ % 2 = 0 then ⌊x⌋ else ⌊x⌋ + 1

/-- Exact rationals, with the square roots of squares. -/
def rationalRatio : RatioOps ℚ where
  ofInt n := n
  add a b := a + b
  sub a b := a - b
  mul a b := a * b
  div a b := a / b
  abs a := |a|
  sqrt a := (Nat.sqrt a.num.toNat : ℚ) / Nat.sqrt a.den
  eq a b := decide (a = b)
  lt a b := decide (a < b)
  nonneg a := decide (0 ≤ a)
  epsilon := 1 / 2 ^ 52
  round a := nearest a
  scaledRatio a b := ⌊10 ^ 18 * (a / b) + 1 / 2⌋

theorem lawful_rationalRatio : Lawful rationalRatio where
  eq_symm a b h := decide_eq_true (of_decide_eq_true h).symm
  eq_trans a b c h h' := decide_eq_true ((of_decide_eq_true h).trans (of_decide_eq_true h'))
  abs_congr a b h := congrArg _ (of_decide_eq_true h)
  nonneg_congr a b h := congrArg _ (of_decide_eq_true h)
  abs_zero := by decide +kernel
  zero_le_epsilon := by decide +kernel

/-- A swimmer turns and turns back. -/
theorem cached_ratio_eq_uncached_turn :
    returned rationalRatio (init rationalRatio)
        [(⟨1, 0, 0⟩, 4), (⟨0, 1, 0⟩, 4), (⟨1, 0, 0⟩, 2), (⟨1, 0, 0⟩, 2)] =
      [rationalRatio.approximateNumbers ⟨1, 0, 0⟩ 4, rationalRatio.approximateNumbers ⟨0, 1, 0⟩ 4,
        rationalRatio.approximateNumbers ⟨1, 0, 0⟩ 2,
        rationalRatio.approximateNumbers ⟨1, 0, 0⟩ 2] :=
  (cached_ratio_eq_uncached_iff rationalRatio lawful_rationalRatio
    [(⟨1, 0, 0⟩, 4), (⟨0, 1, 0⟩, 4), (⟨1, 0, 0⟩, 2), (⟨1, 0, 0⟩, 2)]).2 (by decide +kernel)

/-- The script changes `tas_strafe_maxlength` from 2 to 4 while the direction stays: the second call
still returns a length of 1. -/
theorem cache_keeps_old_length :
    returned rationalRatio (init rationalRatio) [(⟨1, 0, 0⟩, 2), (⟨1, 0, 0⟩, 4)] =
        [⟨1, 0, 0⟩, ⟨1, 0, 0⟩] ∧
      rationalRatio.approximateNumbers ⟨1, 0, 0⟩ 4 = ⟨2, 0, 0⟩ := by
  decide +kernel

end TASQuake.Analysis.RatioMemo
