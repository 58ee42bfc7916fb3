import Mathlib.Data.List.TakeWhile
import Mathlib.Data.Nat.Digits.Lemmas
import Mathlib.Tactic.IntervalCases

/-!
# Decimal numbers as bytes

The text of a number as `printf("%d")` writes it, as a list of ASCII bytes, and the value of
a run of digits as `stoi` and `atoi` read it.  `ofDecimal_decimal` is the round trip.
-/

namespace TASQuake.Lib

open Nat List

/-- The byte of a digit below 10. -/
def digitByte (d : ℕ) : UInt8 := UInt8.ofNat (48 + d)

/-- `'0' <= c && c <= '9'`. -/
def isDigitByte (c : UInt8) : Bool := decide (48 ≤ c.toNat) && decide (c.toNat ≤ 57)

/-- The value of a digit. -/
def digitValue (c : UInt8) : ℕ := c.toNat - 48

/-- `%d` of a natural number. -/
def decimal (n : ℕ) : List UInt8 :=
  if n = 0 then [digitByte 0] else (digits 10 n).reverse.map digitByte

/-- `%d` of an integer. -/
def decimalInt (i : Int) : List UInt8 :=
  if i < 0 then 45 :: decimal i.natAbs else decimal i.natAbs

/-- The number that a run of digits denotes. -/
def ofDecimal (l : List UInt8) : ℕ := l.foldl (fun acc c => acc * 10 + digitValue c) 0

/-- `isspace`. -/
def isSpaceByte (c : UInt8) : Bool := decide (c.toNat = 32) || (decide (9 ≤ c.toNat) && decide (c.toNat ≤ 13))

/-- `atoi`: blanks are skipped, a sign may follow, and then the digits are read.  The value is not
cut to the range of an `int`. -/
def atoi (text : List UInt8) : Int :=
  match text.dropWhile isSpaceByte with
  | 45 :: digits => -(ofDecimal (digits.takeWhile isDigitByte) : Int)
  | 43 :: digits => ofDecimal (digits.takeWhile isDigitByte)
  | digits => ofDecimal (digits.takeWhile isDigitByte)

theorem toNat_digitByte {d : ℕ} (hd : d < 10) : (digitByte d).toNat = 48 + d := by
  unfold digitByte
  rw [UInt8.toNat_ofNat']
  omega

theorem isDigitByte_digitByte {d : ℕ} (hd : d < 10) : isDigitByte (digitByte d) = true := by
  unfold isDigitByte
  rw [toNat_digitByte hd]
  simp only [Bool.and_eq_true, decide_eq_true_eq]
  omega

theorem digitValue_digitByte {d : ℕ} (hd : d < 10) : digitValue (digitByte d) = d := by
  unfold digitValue
  rw [toNat_digitByte hd]
  omega

theorem decimal_ne_nil (n : ℕ) : decimal n ≠ [] := by
  unfold decimal
  split
  · simp
  · next hn =>
    intro h
    have hd : digits 10 n = [] := by simpa using h
    exact hn (digits_eq_nil_iff_eq_zero.mp hd)

theorem isDigitByte_of_mem_decimal {n : ℕ} {c : UInt8} (h : c ∈ decimal n) :
    isDigitByte c = true := by
  unfold decimal at h
  split at h
  · rw [mem_singleton.mp h]
    exact isDigitByte_digitByte (by omega)
  · obtain ⟨d, hd, rfl⟩ := mem_map.mp h
    have hlt : d < 10 := digits_lt_base (by omega) (mem_reverse.mp hd)
    exact isDigitByte_digitByte hlt

/-- Induction on the digits, most significant one last: the fold reads them in the reverse
order. -/
theorem length_decimal_le {n k : ℕ} (h : n < 10 ^ (k + 1)) : (decimal n).length ≤ k + 1 := by
  unfold decimal
  split
  · exact succ_le_succ (zero_le k)
  · rw [length_map, length_reverse]
    exact (digits_length_le_iff (by decide) n).mpr h

theorem ofDecimal_map_digitByte {l : List ℕ} (h : ∀ d ∈ l, d < 10) :
    ofDecimal (l.reverse.map digitByte) = ofDigits 10 l := by
  unfold ofDecimal
  induction l with
  | nil => rfl
  | cons d l ih =>
    have hd : d < 10 := h d mem_cons_self
    have hl := ih fun e he => h e (mem_cons_of_mem _ he)
    rw [reverse_cons, map_append, foldl_append, hl, ofDigits_cons]
    show ofDigits 10 l * 10 + digitValue (digitByte d) = d + 10 * ofDigits 10 l
    rw [digitValue_digitByte hd]
    omega

theorem ofDecimal_decimal (n : ℕ) : ofDecimal (decimal n) = n := by
  unfold decimal
  split
  · next hn =>
    rw [hn]
    rfl
  · rw [ofDecimal_map_digitByte fun d hd => digits_lt_base (by omega) hd, ofDigits_digits]

theorem takeWhile_isDigitByte_decimal (n : ℕ) :
    (decimal n).takeWhile isDigitByte = decimal n :=
  takeWhile_eq_self_iff.mpr fun _ hc => isDigitByte_of_mem_decimal hc

/-- `atoi` reads what `%d` writes. -/
theorem atoi_decimalInt (i : Int) : atoi (decimalInt i) = i := by
  have hdigit : ∀ n, ∃ c l, decimal n = c :: l ∧ isDigitByte c = true := by
    intro n
    obtain ⟨c, l, h⟩ := exists_cons_of_ne_nil (decimal_ne_nil n)
    exact ⟨c, l, h, isDigitByte_of_mem_decimal (h ▸ mem_cons_self)⟩
  unfold decimalInt
  split
  · next hneg =>
    have hsign : (45 :: decimal i.natAbs).dropWhile isSpaceByte = 45 :: decimal i.natAbs := rfl
    unfold atoi
    rw [hsign]
    show -(ofDecimal ((decimal i.natAbs).takeWhile isDigitByte) : Int) = i
    rw [takeWhile_isDigitByte_decimal, ofDecimal_decimal]
    omega
  · obtain ⟨c, l, heq, hc⟩ := hdigit i.natAbs
    have hrange : 48 ≤ c.toNat ∧ c.toNat ≤ 57 := by
      unfold isDigitByte at hc
      simpa using hc
    have hblank : isSpaceByte c = false := by
      unfold isSpaceByte
      simp only [Bool.or_eq_false_iff, Bool.and_eq_false_iff, decide_eq_false_iff_not]
      omega
    have hdrop : (decimal i.natAbs).dropWhile isSpaceByte = decimal i.natAbs := by
      rw [heq, dropWhile_cons_of_neg (by simp [hblank])]
    have hminus : c ≠ 45 := by
      rintro rfl
      exact absurd hrange (by decide)
    have hplus : c ≠ 43 := by
      rintro rfl
      exact absurd hrange (by decide)
    unfold atoi
    rw [hdrop, heq]
    split
    · next h => exact absurd (cons.inj h).1 hminus
    · next h => exact absurd (cons.inj h).1 hplus
    · rw [← heq, takeWhile_isDigitByte_decimal, ofDecimal_decimal]
      omega

/-- A beginning of the digits of a number denotes a smaller number. -/
theorem ofDecimal_take_decimal_lt {n k : ℕ} (hn : 0 < n) (hk : k < (decimal n).length) :
    ofDecimal ((decimal n).take k) < n := by
  have hmono : ∀ (l : List UInt8) (acc : ℕ),
      acc ≤ l.foldl (fun acc c => acc * 10 + digitValue c) acc := by
    intro l
    induction l with
    | nil => exact fun acc => le_refl acc
    | cons c l ih => exact fun acc => le_trans (by omega) (ih (acc * 10 + digitValue c))
  obtain ⟨c, rest, hdrop⟩ := exists_cons_of_ne_nil
    (show (decimal n).drop k ≠ [] by rw [ne_eq, drop_eq_nil_iff]; omega)
  have hvalue := ofDecimal_decimal n
  rw [← take_append_drop k (decimal n), hdrop] at hvalue
  unfold ofDecimal at hvalue ⊢
  rw [foldl_append, foldl_cons] at hvalue
  have hle := hmono rest (((decimal n).take k).foldl (fun acc c => acc * 10 + digitValue c) 0 * 10 +
    digitValue c)
  omega

end TASQuake.Lib
