import Mathlib.Algebra.Order.Field.Power
import TASQuake.Analysis.ScriptImage
import TASQuake.Model.ScriptText

/-!
# The values of convars

`Is_Convar` takes a line for an assignment if a digit, a point or a minus stands somewhere behind
its first space.  What stands there need not be a number, and `FloatFromString` then returns a
float that has not been set.
-/

namespace TASQuake.Analysis.ConvarValues

open Lib FloatText List
open TASScript (cStr)

/-! ## Texts that begin with a float -/

/-- Digits with at most one point: those before it, those behind it, and what follows. -/
inductive MantissaText : Str → Str → Str → Str → Prop
  | whole {text whole rest : Str} (hspan : IsSpan isDigitByte text whole rest)
      (hpoint : rest.head? ≠ some 46) : MantissaText text whole [] rest
  | point {text whole tail frac rest : Str} (hspan : IsSpan isDigitByte text whole (46 :: tail))
      (hfrac : IsSpan isDigitByte tail frac rest) : MantissaText text whole frac rest

/-- The sign of an exponent. -/
inductive ExponentSign : Str → Int → Prop
  | none : ExponentSign [] 1
  | plus : ExponentSign [43] 1
  | minus : ExponentSign [45] (-1)

/-- A text begins with the letter of an exponent, a sign and digits. -/
inductive ExponentText : Str → Int → Prop
  | mk {c : UInt8} {sign text digits rest : Str} {factor : Int} (hletter : c = 101 ∨ c = 69)
      (hsign : ExponentSign sign factor) (hspan : IsSpan isDigitByte text digits rest)
      (hne : digits ≠ []) : ExponentText (c :: (sign ++ text)) (factor * ofDecimal digits)

/-- The exponent that a text begins with, or zero if it begins with none. -/
def HasExponent (text : Str) (exponent : Int) : Prop :=
  ExponentText text exponent ∨ (exponent = 0 ∧ ∀ e, ¬ ExponentText text e)

/-- A number is zero, or it rounds to a finite float that is not zero. -/
def Representable (mantissa : ℕ) (exponent : Int) : Prop :=
  mantissa = 0 ∨ ((2 : ℚ) ^ (-150 : Int) < mantissa * 10 ^ exponent ∧
    (mantissa : ℚ) * 10 ^ exponent < 2 ^ 128 - 2 ^ 103)

/-- A text begins with a decimal number that a float represents. -/
def BeginsWithDecimal (text : Str) : Prop :=
  ∃ whole frac rest exponent, MantissaText text whole frac rest ∧ whole ++ frac ≠ [] ∧
    HasExponent rest exponent ∧ Representable (ofDecimal (whole ++ frac)) (exponent - frac.length)

/-- A text begins with one of the words for the special values. -/
def BeginsWithWord (text : Str) : Prop :=
  ∃ word rest, text = word ++ rest ∧
    (word.map lowerByte = str "inf" ∨ word.map lowerByte = str "nan")

/-- A text begins with a float; there is no sign but a minus. -/
def BeginsWithFloat (text : Str) : Prop :=
  ∃ sign body, text = sign ++ body ∧
    (sign = [45] ∨ (sign = [] ∧ body.head? ≠ some 45)) ∧
    (BeginsWithWord body ∨ BeginsWithDecimal body)

/-! ## The scanner -/

theorem mantissaText_iff {text whole frac rest : Str} :
    MantissaText text whole frac rest ↔ scanMantissa text = (whole, frac, rest) := by
  unfold scanMantissa
  constructor
  · intro h
    cases h with
    | whole hspan hpoint =>
      obtain ⟨rfl, rfl⟩ := isSpan_iff.mp hspan
      rw [if_neg hpoint]
    | point hspan hfrac =>
      obtain ⟨rfl, htail⟩ := isSpan_iff.mp hspan
      obtain ⟨rfl, rfl⟩ := isSpan_iff.mp hfrac
      rw [← htail]
      exact if_pos rfl
  · intro h
    have hspan : IsSpan isDigitByte text (text.takeWhile isDigitByte)
        (text.dropWhile isDigitByte) := isSpan_iff.mpr ⟨rfl, rfl⟩
    simp only at h
    generalize text.dropWhile isDigitByte = tail at h hspan
    split at h
    · next hpoint =>
      obtain ⟨rest', rfl⟩ := head?_eq_some_iff.mp hpoint
      cases h
      exact MantissaText.point hspan (isSpan_iff.mpr ⟨rfl, rfl⟩)
    · next hpoint =>
      cases h
      exact MantissaText.whole hspan hpoint

theorem scanExponent_of_exponentText {text : Str} {exponent : Int}
    (h : ExponentText text exponent) : scanExponent text = exponent := by
  cases h with
  | @mk c sign text digits rest factor hletter hsign hspan hne =>
    obtain ⟨hdigits, -⟩ := isSpan_iff.mp hspan
    rw [scanExponent, if_pos hletter, hdigits]
    cases hsign with
    | none =>
      -- a digit stands where a sign might
      have hfirst : ∀ c, isDigitByte c = false → text.head? ≠ some c := by
        intro c hc hhead
        obtain ⟨tail, rfl⟩ := head?_eq_some_iff.mp hhead
        rw [takeWhile_cons_of_neg (by simp [hc])] at hdigits
        exact hne hdigits
      rw [nil_append, if_neg (hfirst 45 (by decide)), if_neg (hfirst 43 (by decide)), Int.one_mul]
    | plus =>
      have hplus : ([43] ++ text).head? = some 43 := rfl
      rw [hplus, if_neg (by decide), if_pos rfl, Int.one_mul]
      rfl
    | minus =>
      have hminus : ([45] ++ text).head? = some 45 := rfl
      rw [hminus, if_pos rfl, Int.neg_one_mul]
      rfl

theorem exponentText_or_scanExponent_eq_zero (text : Str) :
    ExponentText text (scanExponent text) ∨ scanExponent text = 0 := by
  cases text with
  | nil => exact Or.inr rfl
  | cons c rest =>
    rw [scanExponent]
    split
    · next hletter =>
      have hread : ∀ (sign text : Str) (factor : Int), ExponentSign sign factor →
          rest = sign ++ text →
          ExponentText (c :: rest) (factor * ofDecimal (text.takeWhile isDigitByte)) ∨
            factor * (ofDecimal (text.takeWhile isDigitByte) : Int) = 0 := by
        intro sign text factor hsign hrest
        by_cases hne : text.takeWhile isDigitByte = []
        · right
          rw [hne]
          exact Int.mul_zero factor
        · left
          rw [hrest]
          exact ExponentText.mk hletter hsign (isSpan_iff.mpr ⟨rfl, rfl⟩) hne
      split
      · next hminus =>
        obtain ⟨tail, rfl⟩ := head?_eq_some_iff.mp hminus
        have hsigned := hread [45] tail (-1) ExponentSign.minus rfl
        rw [Int.neg_one_mul] at hsigned
        exact hsigned
      · split
        · next hplus =>
          obtain ⟨tail, rfl⟩ := head?_eq_some_iff.mp hplus
          have hsigned := hread [43] tail 1 ExponentSign.plus rfl
          rw [Int.one_mul] at hsigned
          exact hsigned
        · have hsigned := hread [] rest 1 ExponentSign.none rfl
          rw [Int.one_mul] at hsigned
          exact hsigned
    · exact Or.inr rfl

theorem hasExponent_iff {text : Str} {exponent : Int} :
    HasExponent text exponent ↔ exponent = scanExponent text := by
  constructor
  · rintro (hexp | ⟨rfl, hnone⟩)
    · exact (scanExponent_of_exponentText hexp).symm
    · rcases exponentText_or_scanExponent_eq_zero text with hexp | hzero
      · exact absurd hexp (hnone _)
      · exact hzero.symm
  · rintro rfl
    by_cases hexp : ∃ e, ExponentText text e
    · obtain ⟨e, hexp⟩ := hexp
      left
      rw [scanExponent_of_exponentText hexp]
      exact hexp
    · rcases exponentText_or_scanExponent_eq_zero text with hscan | hzero
      · exact Or.inl hscan
      · exact Or.inr ⟨hzero, fun e he => hexp ⟨e, he⟩⟩

theorem inRange_iff (mantissa : ℕ) (exponent : Int) :
    inRange mantissa exponent = true ↔ Representable mantissa exponent := by
  have hden : (0 : ℚ) < ((10 ^ (-exponent).toNat : ℕ) : ℚ) := by positivity
  have hvalue : (mantissa : ℚ) * 10 ^ exponent =
      ((mantissa * 10 ^ exponent.toNat : ℕ) : ℚ) / ((10 ^ (-exponent).toNat : ℕ) : ℚ) := by
    rcases le_total 0 exponent with hpos | hneg
    · obtain ⟨k, rfl⟩ := Int.eq_ofNat_of_zero_le hpos
      have hzero : (-(k : Int)).toNat = 0 := by omega
      rw [hzero, Int.toNat_natCast, zpow_natCast]
      push_cast
      rw [div_one]
    · obtain ⟨k, hk⟩ := Int.eq_ofNat_of_zero_le (show 0 ≤ -exponent by omega)
      have hexp : exponent = -(k : Int) := by omega
      have hzero : exponent.toNat = 0 := by omega
      rw [hzero, hk, Int.toNat_natCast, hexp, zpow_neg, zpow_natCast]
      push_cast
      rw [mul_one, div_eq_mul_inv]
  have hsmall : (2 : ℚ) ^ (-150 : Int) = 1 / ((2 ^ 150 : ℕ) : ℚ) := by
    rw [zpow_neg, one_div]
    norm_cast
  have hlarge : (2 : ℚ) ^ 128 - 2 ^ 103 = ((2 ^ 128 - 2 ^ 103 : ℕ) : ℚ) := by norm_num
  unfold inRange Representable
  rw [decide_eq_true_iff, hvalue, hsmall, hlarge, div_lt_div_iff₀ (by positivity) hden,
    div_lt_iff₀ hden, one_mul, mul_comm ((2 ^ 128 - 2 ^ 103 : ℕ) : ℚ)]
  norm_cast

theorem map_take_eq_iff {text word : Str} (hlen : word.length = 3) :
    (text.take 3).map lowerByte = word ↔
      ∃ start rest, text = start ++ rest ∧ start.map lowerByte = word := by
  constructor
  · intro h
    exact ⟨text.take 3, text.drop 3, (take_append_drop 3 text).symm, h⟩
  · rintro ⟨start, rest, rfl, rfl⟩
    rw [length_map] at hlen
    rw [← hlen, take_left]

theorem isSome_fromCharsUnsigned (negative : Bool) (text : Str) :
    (fromCharsUnsigned negative text).isSome = true ↔
      BeginsWithWord text ∨ BeginsWithDecimal text := by
  have hword : BeginsWithWord text ↔ (text.take 3).map lowerByte = str "inf" ∨
      (text.take 3).map lowerByte = str "nan" := by
    rw [map_take_eq_iff rfl, map_take_eq_iff rfl]
    unfold BeginsWithWord
    constructor
    · rintro ⟨word, rest, htext, hinf | hnan⟩
      · exact Or.inl ⟨word, rest, htext, hinf⟩
      · exact Or.inr ⟨word, rest, htext, hnan⟩
    · rintro (⟨word, rest, htext, hinf⟩ | ⟨word, rest, htext, hnan⟩)
      · exact ⟨word, rest, htext, Or.inl hinf⟩
      · exact ⟨word, rest, htext, Or.inr hnan⟩
  have hdecimal : BeginsWithDecimal text ↔
      (scanMantissa text).1 ++ (scanMantissa text).2.1 ≠ [] ∧
        inRange (ofDecimal ((scanMantissa text).1 ++ (scanMantissa text).2.1))
          (scanExponent (scanMantissa text).2.2 - (scanMantissa text).2.1.length) = true := by
    unfold BeginsWithDecimal
    constructor
    · rintro ⟨whole, frac, rest, exponent, hmantissa, hne, hexp, hrange⟩
      rw [mantissaText_iff.mp hmantissa]
      rw [hasExponent_iff] at hexp
      exact ⟨hne, (inRange_iff _ _).mpr (hexp ▸ hrange)⟩
    · rintro ⟨hne, hrange⟩
      exact ⟨_, _, _, _, mantissaText_iff.mpr rfl, hne, hasExponent_iff.mpr rfl,
        (inRange_iff _ _).mp hrange⟩
  rw [hword, hdecimal]
  unfold fromCharsUnsigned
  split
  · next hinf => exact ⟨fun _ => Or.inl (Or.inl hinf), fun _ => rfl⟩
  · next hinf =>
    split
    · next hnan => exact ⟨fun _ => Or.inl (Or.inr hnan), fun _ => rfl⟩
    · next hnan =>
      simp only
      split
      · next hok => exact ⟨fun _ => Or.inr hok, fun _ => rfl⟩
      · next hbad =>
        constructor
        · intro h
          cases h
        · rintro ((hinf' | hnan') | hok)
          · exact absurd hinf' hinf
          · exact absurd hnan' hnan
          · exact absurd hok hbad

theorem isSome_floatFromString (text : Str) :
    (floatFromString text).isSome = true ↔ BeginsWithFloat text := by
  unfold floatFromString BeginsWithFloat
  split
  · next hminus =>
    obtain ⟨tail, rfl⟩ := head?_eq_some_iff.mp hminus
    rw [isSome_fromCharsUnsigned]
    constructor
    · exact fun h => ⟨[45], tail, rfl, Or.inl rfl, h⟩
    · rintro ⟨sign, body, htext, rfl | ⟨rfl, hbody⟩, h⟩
      · cases htext
        exact h
      · rw [nil_append] at htext
        rw [← htext] at hbody
        exact absurd rfl hbody
  · next hplain =>
    rw [isSome_fromCharsUnsigned]
    constructor
    · exact fun h => ⟨[], text, rfl, Or.inr ⟨rfl, hplain⟩, h⟩
    · rintro ⟨sign, body, rfl, rfl | ⟨rfl, -⟩, h⟩
      · exact absurd rfl hplain
      · exact h

/-! ## Lines that are taken for assignments -/

/-- A line is a name, a space, and then a text in front of which no value starts; the name is that
of a convar. -/
structure Assigns (isConvar : Str → Bool) (line name : Str) (space : UInt8) (between value : Str) :
    Prop where
  line_eq : line = name ++ space :: (between ++ value)
  name_noSpace : ∀ c ∈ name, isSpaceByte c = false
  isSpace : isSpaceByte space = true
  between_noStart : ∀ c ∈ between, startsValue c = false
  value_starts : ∃ c ∈ value.head?, startsValue c = true
  isConvar : isConvar (cStr name) = true

theorem convarIndices?_eq_some_iff {F : Type} {env : TextEnv F} {line : Str} {s t : ℕ} :
    convarIndices? env line = some (s, t) ↔
      ∃ name space between value, Assigns env.isConvar line name space between value ∧
        s = name.length ∧ t = name.length + 1 + between.length := by
  unfold convarIndices?
  rw [Option.filter_eq_some_iff, scanConvar_eq_some_iff]
  -- the name has no space, so that trimming leaves it as it is
  have htrim : ∀ {name rest : Str}, (∀ c ∈ name, isSpaceByte c = false) →
      trim isSpaceByte ((name ++ rest).take name.length) = name := by
    intro name rest hname
    rw [take_left, trim_eq_self (trimmed_of_forall hname)]
  constructor
  · rintro ⟨⟨name, space, between, value, rfl, hname, hspace, hbetween, hvalue, rfl, rfl⟩, hconvar⟩
    rw [Nat.zero_add, htrim hname] at hconvar
    exact ⟨name, space, between, value, ⟨rfl, hname, hspace, hbetween, hvalue, hconvar⟩,
      Nat.zero_add _, by omega⟩
  · rintro ⟨name, space, between, value, ⟨rfl, hname, hspace, hbetween, hvalue, hconvar⟩, rfl, rfl⟩
    refine ⟨⟨name, space, between, value, rfl, hname, hspace, hbetween, hvalue,
      (Nat.zero_add _).symm, by omega⟩, ?_⟩
    rw [htrim hname]
    exact hconvar

theorem Assigns.drop_eq {isConvar : Str → Bool} {line name between value : Str} {space : UInt8}
    (h : Assigns isConvar line name space between value) :
    line.drop (name.length + 1 + between.length) = value := by
  have hline : line = (name ++ [space] ++ between) ++ value := by
    rw [h.line_eq, append_assoc, append_assoc, singleton_append]
  rw [hline]
  refine drop_left' ?_
  rw [length_append, length_append, length_singleton]

/-! ## What is stored -/

/-- If a line is taken for an assignment, then its text converts to a number, and this is what is
stored. -/
def StoresNumber (isConvar : Str → Bool) (line : Str) : Prop :=
  ∀ toChars s t, convarIndices? (FloatText.env isConvar toChars) line = some (s, t) →
    ∃ number, floatFromString (cStr (line.drop t)) = some number ∧
      ∀ block : FrameBlock (Option FloatNumber),
        (block.parseConvar (FloatText.env isConvar toChars) line s t).convars.find? (line.take s) =
          some (some number)

/-- **A line that is taken for an assignment stores a number exactly if the text from its first
digit, point or minus behind the first space on begins with a float.** -/
theorem accepted_lines_store_numbers_iff (isConvar : Str → Bool) (line : Str) :
    StoresNumber isConvar line ↔
      ∀ name space between value, Assigns isConvar line name space between value →
        BeginsWithFloat (cStr value) := by
  constructor
  · intro h name space between value hassigns
    obtain ⟨number, hnumber, -⟩ := h (fun _ => []) name.length (name.length + 1 + between.length)
      (convarIndices?_eq_some_iff.mpr ⟨name, space, between, value, hassigns, rfl, rfl⟩)
    rw [hassigns.drop_eq] at hnumber
    rw [← isSome_floatFromString, hnumber]
    rfl
  · intro h toChars s t hindices
    obtain ⟨name, space, between, value, hassigns, rfl, rfl⟩ :=
      convarIndices?_eq_some_iff.mp hindices
    have hfloat := h name space between value hassigns
    rw [← isSome_floatFromString, Option.isSome_iff_exists] at hfloat
    obtain ⟨number, hnumber⟩ := hfloat
    rw [hassigns.drop_eq]
    refine ⟨number, hnumber, fun block => ?_⟩
    show (block.convars.put _ (floatFromString (cStr (line.drop _)))).find? _ = _
    rw [hassigns.drop_eq, hnumber, Lib.OrderedMap.find?_put_self]

/-- A lone minus, a lone point and a number that no float represents are accepted, and the script
loads with floats that have not been set. -/
theorem unset_values_are_stored :
    let env := FloatText.env (fun _ => true) fun _ => []
    let loaded := TASScript.loadFromString env []
      (str "1:\ntas_strafe_yaw -\ntas_strafe_pitch .\ntas_strafe 1e39\n")
    loaded.rval = true ∧
      loaded.blocks.map (fun block => block.convars.values) =
        [[(str "tas_strafe_yaw", none), (str "tas_strafe_pitch", none), (str "tas_strafe", none)]] ∧
      ¬ StoresNumber (fun _ => true) (str "tas_strafe_yaw -") := by
  refine ⟨by decide +kernel, by decide +kernel, fun h => ?_⟩
  obtain ⟨number, hnumber, -⟩ := h (fun _ => []) 14 15 (by decide)
  cases hnumber

end TASQuake.Analysis.ConvarValues
