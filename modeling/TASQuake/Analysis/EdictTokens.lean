import TASQuake.Model.EdictText

/-!
# Pairs of quoted strings

What `COM_Parse` makes of the text that the writers put out: a quoted string is one token, so the
loop of the parsers goes through the pairs one after the other (`parsePairs_eq_foldlM`).  All texts
of values but those of strings are short and have neither quotes nor braces.
-/

namespace TASQuake

open Lib Except List

/-! ## Tokens -/

section Tokens

theorem comParse_blank {c : UInt8} (hc : isBlankByte c = true) (data : Str) :
    comParse (c :: data) = comParse data := by
  have hskip : skipWhite false (c :: data) = skipWhite false data := by
    conv_lhs => unfold skipWhite
    rw [if_pos hc]
  unfold comParse
  rw [hskip]

theorem comParse_quoted_eq {text : Str} (hquote : 34 ∉ text) (behind : Str) :
    comParse (34 :: (text ++ 34 :: behind)) = token text (some behind) := by
  have hskip : skipWhite false (34 :: (text ++ 34 :: behind)) = 34 :: (text ++ 34 :: behind) := by
    conv_lhs => unfold skipWhite
    rw [if_neg (by decide), if_neg fun h => absurd h.1 (by decide)]
  have hall : ∀ c ∈ text, decide (c ≠ 34) = true := by
    intro c hc
    rw [decide_eq_true_eq]
    rintro rfl
    exact hquote hc
  have htake : (text ++ 34 :: behind).takeWhile (fun c => decide (c ≠ 34)) = text := by
    rw [takeWhile_append_of_pos hall]
    simp
  have hdrop : (text ++ 34 :: behind).dropWhile (fun c => decide (c ≠ 34)) = 34 :: behind := by
    rw [dropWhile_append_of_pos hall]
    simp
  unfold comParse
  rw [hskip]
  dsimp only
  rw [if_pos rfl, hdrop, htake]

theorem comParse_quoted {text : Str} (hquote : 34 ∉ text) (hlen : text.length < 1024)
    (behind : Str) : comParse (34 :: (text ++ 34 :: behind)) = .ok (text, some behind) := by
  rw [comParse_quoted_eq hquote]
  exact if_pos hlen

theorem comParse_brace (behind : Str) : comParse (125 :: behind) = .ok ([125], some behind) := by
  have hskip : skipWhite false (125 :: behind) = 125 :: behind := by
    conv_lhs => unfold skipWhite
    rw [if_neg (by decide), if_neg fun h => absurd h.1 (by decide)]
  unfold comParse
  rw [hskip]
  rfl

end Tokens

/-! ## Pairs -/

/-- The text of a list of pairs. -/
def pairsText (pairs : List (Str × Str)) : Str := pairs.flatMap fun p => writePair p.1 p.2

theorem pairsText_cons (p : Str × Str) (pairs : List (Str × Str)) :
    pairsText (p :: pairs) = writePair p.1 p.2 ++ pairsText pairs := rfl

theorem writePair_append (name value behind : Str) :
    writePair name value ++ behind =
      34 :: (name ++ 34 :: 32 :: 34 :: (value ++ 34 :: 10 :: behind)) := by
  have hquote : str "\"" = [34] := rfl
  have hmiddle : str "\" " = [34, 32] := rfl
  have hend : str "\"\n" = [34, 10] := rfl
  unfold writePair
  rw [hquote, hmiddle, hend]
  simp

theorem length_writePair (name value : Str) :
    (writePair name value).length = name.length + value.length + 6 := by
  have h := congrArg length (writePair_append name value [])
  simp only [append_nil, length_cons, length_append, length_nil] at h
  omega

/-- A pair whose key and value the parsers get back. -/
structure PlainPair (keySize : ℕ) (p : Str × Str) : Prop where
  key_length : p.1.length < keySize
  value_length : p.2.length < 1024
  key_quote : 34 ∉ p.1
  value_quote : 34 ∉ p.2
  key_brace : p.1.head? ≠ some 125
  value_brace : p.2.head? ≠ some 125

section Pairs

variable {σ : Type} {keySize : ℕ} {pair : Str → Str → σ → Except Fault σ}

theorem parsePairs_newline (fuel : ℕ) (data : Str) (state : σ) :
    parsePairs keySize pair fuel (10 :: data) state = parsePairs keySize pair fuel data state := by
  cases fuel with
  | zero => rfl
  | succ fuel =>
    unfold parsePairs
    rw [comParse_blank (by decide)]

theorem parsePairs_pair (hsize : keySize ≤ 1024) {p : Str × Str} (hp : PlainPair keySize p)
    (fuel : ℕ) (behind : Str) (state : σ) :
    parsePairs keySize pair (fuel + 1) (writePair p.1 p.2 ++ behind) state =
      (pair p.1 p.2 state).bind fun state => parsePairs keySize pair fuel behind state := by
  rw [writePair_append]
  conv_lhs => unfold parsePairs
  rw [comParse_quoted hp.key_quote (hp.key_length.trans_le hsize)]
  dsimp only [Bind.bind, Except.bind]
  rw [if_neg hp.key_brace, if_neg (not_le.mpr hp.key_length), comParse_blank (by decide),
    comParse_quoted hp.value_quote hp.value_length]
  dsimp only
  rw [if_neg hp.value_brace]
  cases pair p.1 p.2 state with
  | error fault => rfl
  | ok state => exact parsePairs_newline fuel behind state

theorem parsePairs_long_key {name value : Str} (hquote : 34 ∉ name) (hbrace : name.head? ≠ some 125)
    (hlong : keySize ≤ name.length) (fuel : ℕ) (behind : Str) (state : σ) :
    parsePairs keySize pair (fuel + 1) (writePair name value ++ behind) state =
      .error .undefined := by
  rw [writePair_append]
  conv_lhs => unfold parsePairs
  rw [comParse_quoted_eq hquote]
  unfold token
  split
  · dsimp only [Bind.bind, Except.bind]
    rw [if_neg hbrace, if_pos hlong]
  · rfl

variable {pairs : List (Str × Str)}

/-- **The loop of the parsers** on a written text. -/
theorem parsePairs_eq_foldlM (hsize : keySize ≤ 1024) (hpairs : ∀ p ∈ pairs, PlainPair keySize p)
    {fuel : ℕ} (hfuel : pairs.length < fuel) (state : σ) :
    parsePairs keySize pair fuel (pairsText pairs ++ str "\x7d") state =
      pairs.foldlM (fun state p => pair p.1 p.2 state) state := by
  induction pairs generalizing fuel state with
  | nil =>
    obtain ⟨fuel, rfl⟩ := Nat.exists_eq_succ_of_ne_zero (Nat.ne_of_gt hfuel)
    show parsePairs keySize pair (fuel + 1) (125 :: []) state = _
    unfold parsePairs
    rw [comParse_brace]
    rfl
  | cons p pairs ih =>
    obtain ⟨fuel, rfl⟩ := Nat.exists_eq_succ_of_ne_zero (Nat.ne_zero_of_lt hfuel)
    have hfuel' : pairs.length < fuel := by simpa using hfuel
    have hrest := ih (fun q hq => hpairs q (mem_cons_of_mem _ hq)) hfuel'
    rw [pairsText_cons, append_assoc, Nat.succ_eq_add_one,
      parsePairs_pair hsize (hpairs p mem_cons_self), foldlM_cons]
    congr 1
    funext state
    exact hrest state

/-- **A written text is parsed** exactly if all keys fit and all pairs are taken, where what pairs
are taken does not depend on the variables. -/
theorem parsePairs_isOk_iff (hsize : keySize ≤ 1024) {taken : Str × Str → Prop}
    (htaken : ∀ p state, (∃ state', pair p.1 p.2 state = .ok state') ↔ taken p)
    (hpairs : ∀ p ∈ pairs, PlainPair (p.1.length + 1) p) {fuel : ℕ} (hfuel : pairs.length < fuel)
    (state : σ) :
    (∃ state', parsePairs keySize pair fuel (pairsText pairs ++ str "\x7d") state = .ok state') ↔
      ∀ p ∈ pairs, p.1.length < keySize ∧ taken p := by
  induction pairs generalizing fuel state with
  | nil =>
    rw [parsePairs_eq_foldlM hsize (fun p hp => absurd hp not_mem_nil) hfuel]
    exact ⟨fun _ p hp => absurd hp not_mem_nil, fun _ => ⟨state, rfl⟩⟩
  | cons p pairs ih =>
    obtain ⟨fuel, rfl⟩ := Nat.exists_eq_succ_of_ne_zero (Nat.ne_zero_of_lt hfuel)
    have hfuel' : pairs.length < fuel := by simpa using hfuel
    have hrest := ih (fun q hq => hpairs q (mem_cons_of_mem _ hq)) hfuel'
    have hp := hpairs p mem_cons_self
    rw [pairsText_cons, append_assoc, Nat.succ_eq_add_one, forall_mem_cons]
    by_cases hkey : p.1.length < keySize
    · rw [parsePairs_pair hsize { hp with key_length := hkey }]
      cases hpair : pair p.1 p.2 state with
      | error fault =>
        have hnot : ¬ taken p := by
          rw [← htaken p state, hpair]
          rintro ⟨_, hok⟩
          cases hok
        exact ⟨fun ⟨_, hok⟩ => absurd hok nofun, fun h => absurd h.1.2 hnot⟩
      | ok state₁ =>
        have hyes : taken p := (htaken p state).mp ⟨state₁, hpair⟩
        exact (hrest state₁).trans ⟨fun h => ⟨⟨hkey, hyes⟩, h⟩, fun h => h.2⟩
    · rw [parsePairs_long_key hp.key_quote hp.key_brace (not_lt.mp hkey)]
      exact ⟨fun ⟨_, hok⟩ => absurd hok nofun, fun h => absurd h.1.1 hkey⟩

theorem length_le_pairsText (pairs : List (Str × Str)) :
    pairs.length ≤ (pairsText pairs).length := by
  induction pairs with
  | nil => exact Nat.le_refl 0
  | cons p pairs ih =>
    rw [pairsText_cons, length_append, length_writePair, length_cons]
    omega

theorem length_pairsText (pairs : List (Str × Str)) :
    (pairsText pairs).length = (pairs.map fun p => p.1.length + p.2.length + 6).sum := by
  induction pairs with
  | nil => rfl
  | cons p pairs ih =>
    rw [pairsText_cons, length_append, length_writePair, ih, map_cons, sum_cons]

theorem brace_mem_pairsText : 125 ∈ pairsText pairs ↔ ∃ p ∈ pairs, 125 ∈ p.1 ∨ 125 ∈ p.2 := by
  have hpair : ∀ name value : Str, 125 ∈ writePair name value ↔ 125 ∈ name ∨ 125 ∈ value := by
    intro name value
    have h := writePair_append name value []
    rw [append_nil] at h
    rw [h]
    simp
  unfold pairsText
  rw [mem_flatMap]
  simp only [hpair]

end Pairs

/-! ## The texts of values -/

section Values

variable {sv : Server} {type : EType} {val : ℕ → Word}

/-- The text of a value, without the limits of `line`. -/
def valueText (sv : Server) (type : EType) (val : ℕ → Word) : Str :=
  match type with
  | .string => sv.strings (val 0)
  | .entity => decimalInt ((val 0).toInt.tdiv sv.edictSize)
  | .function => (sv.progs.functions[(val 0).toInt.toNat]?).getD []
  | .field => ((sv.progs.fieldAtOfs (val 0).toInt).map Def.name).getD []
  | .void => str "void"
  | .float => decimalInt (val 0).toInt
  | .vector =>
    decimalInt (val 0).toInt ++ str " " ++ decimalInt (val 1).toInt ++ str " " ++
      decimalInt (val 2).toInt
  | .pointer => str "bad type 7"

/-- An entity, a function or a field that is there. -/
def ValidValue (sv : Server) (type : EType) (val : ℕ → Word) : Prop :=
  match type with
  | .entity => ∃ n : ℕ, (n : Int) < sv.numEdicts ∧ (val 0).toInt = n * sv.edictSize
  | .function => ∃ f < sv.progs.functions.length, (val 0).toInt = (f : ℕ)
  | .field => ∃ d ∈ sv.progs.fieldDefs, (d.ofs : Int) = (val 0).toInt
  | _ => True

/-- **`_PR_UglyValueString` on a value that is there.** -/
theorem uglyValueString_eq (hsize : 0 < sv.edictSize) (hvalid : ValidValue sv type val) :
    uglyValueString sv type val = sprintfLine (valueText sv type val) := by
  cases type with
  | entity =>
    obtain ⟨n, hn, hval⟩ := hvalid
    have hdiv : (val 0).toInt.tdiv sv.edictSize = n := by
      rw [hval]
      exact Int.mul_tdiv_cancel _ (by omega)
    have hok : sv.numForEdict (val 0) = .ok n := by
      unfold Server.numForEdict
      dsimp only
      rw [hdiv, if_neg (by omega)]
    show (sv.numForEdict (val 0)).bind _ = sprintfLine (decimalInt _)
    rw [hok, hdiv]
    rfl
  | function =>
    obtain ⟨f, hf, hval⟩ := hvalid
    have hget := getElem?_eq_getElem hf
    have hcast := hval
    unfold uglyValueString valueText
    dsimp only
    rw [hcast]
    dsimp only [Int.toNat]
    rw [hget]
    rfl
  | field =>
    obtain ⟨d, hd, hval⟩ := hvalid
    have hfound : (sv.progs.fieldAtOfs (val 0).toInt).isSome = true := by
      unfold Progs.fieldAtOfs
      rw [find?_isSome]
      exact ⟨d, hd, decide_eq_true hval⟩
    obtain ⟨e, he⟩ := Option.isSome_iff_exists.mp hfound
    unfold uglyValueString valueText
    dsimp only
    rw [he]
    rfl
  | _ => rfl

/-- A text that fits into `line` and has neither quotes nor braces. -/
structure PlainText (text : Str) : Prop where
  length_lt : text.length < 256
  quote : 34 ∉ text
  brace : 125 ∉ text

instance (text : Str) : Decidable (PlainText text) :=
  decidable_of_iff (text.length < 256 ∧ 34 ∉ text ∧ 125 ∉ text)
    ⟨fun h => ⟨h.1, h.2.1, h.2.2⟩, fun h => ⟨h.length_lt, h.quote, h.brace⟩⟩

theorem isDigitByte_or_minus {i : Int} {c : UInt8} (h : c ∈ decimalInt i) :
    isDigitByte c = true ∨ c = 45 := by
  unfold decimalInt at h
  split at h
  · rcases mem_cons.mp h with rfl | h
    · exact .inr rfl
    · exact .inl (isDigitByte_of_mem_decimal h)
  · exact .inl (isDigitByte_of_mem_decimal h)

theorem notMem_decimalInt {c : UInt8} (hc : isDigitByte c = false) (hminus : c ≠ 45) (i : Int) :
    c ∉ decimalInt i := by
  intro h
  rcases isDigitByte_or_minus h with h | h
  · rw [hc] at h
    cases h
  · exact hminus h

theorem length_decimalInt_word (w : Word) : (decimalInt w.toInt).length ≤ 11 := by
  have hlow := BitVec.le_toInt w
  have hhigh : w.toInt < 2 ^ 31 := BitVec.toInt_lt
  have hdigits : (decimal w.toInt.natAbs).length ≤ 10 := length_decimal_le (by omega)
  unfold decimalInt
  split
  · rw [length_cons]
    omega
  · omega

theorem plainText_decimalInt_word (w : Word) : PlainText (decimalInt w.toInt) := by
  have hlen := length_decimalInt_word w
  exact ⟨by omega, notMem_decimalInt (by decide) (by decide) _,
    notMem_decimalInt (by decide) (by decide) _⟩

/-- The names of the tables are short and have neither quotes nor braces. -/
structure PlainNames (progs : Progs) : Prop where
  fields : ∀ d ∈ progs.fieldDefs, PlainText d.name
  functions : ∀ f ∈ progs.functions, PlainText f

/-- **Only the text of a string can be long or have quotes and braces.** -/
theorem plainText_valueText (hnames : PlainNames sv.progs) (hsize : 0 < sv.edictSize)
    (hvalid : ValidValue sv type val) (hstring : type ≠ .string) :
    PlainText (valueText sv type val) := by
  cases type with
  | string => exact absurd rfl hstring
  | void =>
    show PlainText (str "void")
    decide +kernel
  | pointer =>
    show PlainText (str "bad type 7")
    decide +kernel
  | float => exact plainText_decimalInt_word (val 0)
  | vector =>
    have hlen₀ := length_decimalInt_word (val 0)
    have hlen₁ := length_decimalInt_word (val 1)
    have hlen₂ := length_decimalInt_word (val 2)
    have hblank : (str " ").length = 1 := rfl
    have hnot : ∀ c : UInt8, isDigitByte c = false → c ≠ 45 → c ≠ 32 →
        c ∉ valueText sv .vector val := by
      intro c hc hminus hspace
      have hspace' : c ∉ str " " := by
        intro h
        exact hspace (mem_singleton.mp h)
      unfold valueText
      simp only [mem_append, not_or]
      exact ⟨⟨⟨⟨notMem_decimalInt hc hminus _, hspace'⟩, notMem_decimalInt hc hminus _⟩, hspace'⟩,
        notMem_decimalInt hc hminus _⟩
    refine ⟨?_, hnot 34 (by decide) (by decide) (by decide),
      hnot 125 (by decide) (by decide) (by decide)⟩
    show (decimalInt (val 0).toInt ++ str " " ++ decimalInt (val 1).toInt ++ str " " ++
      decimalInt (val 2).toInt).length < 256
    simp only [length_append, hblank]
    omega
  | entity =>
    -- the number of the edict is no larger than its offset
    obtain ⟨n, -, hval⟩ := hvalid
    have hdiv : (val 0).toInt.tdiv sv.edictSize = n := by
      rw [hval]
      exact Int.mul_tdiv_cancel _ (by omega)
    have hle : (n : Int) ≤ n * sv.edictSize := by
      have hone : (1 : Int) ≤ sv.edictSize := by omega
      exact le_mul_of_one_le_right (by omega) hone
    have hhigh : (val 0).toInt < 2 ^ 31 := BitVec.toInt_lt
    have hlen : (decimalInt (n : Int)).length ≤ 10 := by
      unfold decimalInt
      rw [if_neg (by omega)]
      exact length_decimal_le (by omega)
    show PlainText (decimalInt _)
    rw [hdiv]
    exact ⟨by omega, notMem_decimalInt (by decide) (by decide) _,
      notMem_decimalInt (by decide) (by decide) _⟩
  | function =>
    obtain ⟨f, hf, hval⟩ := hvalid
    show PlainText ((sv.progs.functions[(val 0).toInt.toNat]?).getD [])
    rw [hval, Int.toNat_natCast, getElem?_eq_getElem hf]
    exact hnames.functions _ (getElem_mem hf)
  | field =>
    show PlainText (((sv.progs.fieldAtOfs (val 0).toInt).map Def.name).getD [])
    cases hd : sv.progs.fieldAtOfs (val 0).toInt with
    | none => exact ⟨by decide, not_mem_nil, not_mem_nil⟩
    | some d => exact hnames.fields d (mem_of_find?_eq_some hd)

end Values

/-! ## What is written -/

section Written

/-- Pairs that are written through `line`. -/
def writePairs : List (Str × Str) → Except Fault Str
  | [] => .ok []
  | p :: pairs => do
    let value ← sprintfLine p.2
    let rest ← writePairs pairs
    .ok (writePair p.1 value ++ rest)

variable {text : Str}

theorem writePairs_eq_ok_iff {pairs : List (Str × Str)} :
    writePairs pairs = .ok text ↔
      (∀ p ∈ pairs, p.2.length < 256) ∧ text = pairsText pairs := by
  induction pairs generalizing text with
  | nil =>
    show ok [] = ok text ↔ _
    rw [ok.injEq]
    exact ⟨fun h => ⟨nofun, h.symm⟩, fun h => h.2.symm⟩
  | cons p pairs ih =>
    have hunfold : writePairs (p :: pairs) = (sprintfLine p.2).bind fun value =>
        (writePairs pairs).bind fun rest => .ok (writePair p.1 value ++ rest) := rfl
    have hline : ∀ value, sprintfLine p.2 = .ok value ↔ p.2.length < 256 ∧ value = p.2 := by
      intro value
      unfold sprintfLine
      split
      · next hlen => exact ⟨fun h => ⟨hlen, (ok.inj h).symm⟩, fun h => congrArg _ h.2.symm⟩
      · next hlen => exact ⟨nofun, fun h => absurd h.1 hlen⟩
    simp only [hunfold, bind_eq_ok_iff, hline, ih, ok.injEq, forall_mem_cons]
    constructor
    · rintro ⟨_, ⟨hlen, rfl⟩, _, ⟨hall, rfl⟩, rfl⟩
      exact ⟨⟨hlen, hall⟩, rfl⟩
    · rintro ⟨⟨hlen, hall⟩, rfl⟩
      exact ⟨_, ⟨hlen, rfl⟩, _, ⟨hall, rfl⟩, rfl⟩

variable {sv : Server}

/-- The pairs of an edict: the fields that are not 0. -/
def fieldPairs (sv : Server) (v : ℕ → Word) (defs : List Def) : List (Str × Str) :=
  (defs.filter fun d => !isZero d.type (wordsAt v d.ofs)).map fun d =>
    (d.name, valueText sv d.type (wordsAt v d.ofs))

/-- The pairs of the globals. -/
def globalPairs (sv : Server) (defs : List Def) : List (Str × Str) :=
  (defs.filter Def.isSaved).map fun d => (d.name, valueText sv d.type (wordsAt sv.globals d.ofs))

theorem writeFields_eq (hsize : 0 < sv.edictSize) {v : ℕ → Word} {defs : List Def}
    (hvalid : ∀ d ∈ defs, isZero d.type (wordsAt v d.ofs) = false →
      ValidValue sv d.type (wordsAt v d.ofs)) :
    writeFields sv v defs = writePairs (fieldPairs sv v defs) := by
  induction defs with
  | nil => rfl
  | cons d defs ih =>
    have hrest := ih fun e he => hvalid e (mem_cons_of_mem _ he)
    unfold fieldPairs at hrest ⊢
    unfold writeFields
    cases hzero : isZero d.type (wordsAt v d.ofs) with
    | true =>
      rw [filter_cons_of_neg (by simp [hzero])]
      exact hrest
    | false =>
      rw [filter_cons_of_pos (by simp [hzero]), map_cons, writePairs,
        uglyValueString_eq hsize (hvalid d mem_cons_self hzero), hrest]
      rfl

theorem writeGlobals_eq (hsize : 0 < sv.edictSize) {defs : List Def}
    (hvalid : ∀ d ∈ defs, d.isSaved = true → ValidValue sv d.type (wordsAt sv.globals d.ofs)) :
    writeGlobals sv defs = writePairs (globalPairs sv defs) := by
  induction defs with
  | nil => rfl
  | cons d defs ih =>
    have hrest := ih fun e he => hvalid e (mem_cons_of_mem _ he)
    unfold globalPairs at hrest ⊢
    unfold writeGlobals
    cases hsaved : d.isSaved with
    | false =>
      rw [filter_cons_of_neg (by simp [hsaved])]
      exact hrest
    | true =>
      rw [filter_cons_of_pos hsaved, map_cons, writePairs,
        uglyValueString_eq hsize (hvalid d mem_cons_self hsaved), hrest]
      rfl

theorem bind_brace_eq_ok_iff {pairs : List (Str × Str)} :
    ((writePairs pairs).bind fun body => .ok (body ++ str "\x7d")) = .ok text ↔
      (∀ p ∈ pairs, p.2.length < 256) ∧ text = pairsText pairs ++ str "\x7d" := by
  simp only [bind_eq_ok_iff, writePairs_eq_ok_iff, ok.injEq]
  constructor
  · rintro ⟨_, ⟨hlen, rfl⟩, rfl⟩
    exact ⟨hlen, rfl⟩
  · rintro ⟨hlen, rfl⟩
    exact ⟨_, ⟨hlen, rfl⟩, rfl⟩

/-- **The text of an edict.** -/
theorem edWrite_eq_ok_iff (hsize : 0 < sv.edictSize) {v : ℕ → Word}
    (hvalid : ∀ d ∈ sv.progs.fieldDefs.drop 1, isZero d.type (wordsAt v d.ofs) = false → ValidValue sv d.type (wordsAt v d.ofs)) :
    edWrite sv v = .ok text ↔
      (∀ p ∈ fieldPairs sv v (sv.progs.fieldDefs.drop 1), p.2.length < 256) ∧
        text = pairsText (fieldPairs sv v (sv.progs.fieldDefs.drop 1)) ++ str "\x7d" := by
  rw [← bind_brace_eq_ok_iff, ← writeFields_eq hsize hvalid]
  rfl

/-- **The text of the globals.** -/
theorem edWriteGlobals_eq_ok_iff (hsize : 0 < sv.edictSize)
    (hvalid : ∀ d ∈ sv.progs.globalDefs, d.isSaved = true → ValidValue sv d.type (wordsAt sv.globals d.ofs)) :
    edWriteGlobals sv = .ok text ↔
      (∀ p ∈ globalPairs sv sv.progs.globalDefs, p.2.length < 256) ∧
        text = pairsText (globalPairs sv sv.progs.globalDefs) ++ str "\x7d" := by
  rw [← bind_brace_eq_ok_iff, ← writeGlobals_eq hsize hvalid]
  rfl

end Written

end TASQuake
