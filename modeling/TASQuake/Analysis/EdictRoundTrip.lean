import TASQuake.Analysis.EdictTokens
import TASQuake.Lib.KeyedMap
import TASQuake.Model.SavestateStream

/-!
# Edicts come back from their text

A float, an entity and a function come back from their texts.  The bit patterns of a vector are read
as numbers, but a component that is 0 is read as 0, and the others are written again as floats,
right behind the vector (`FieldGroup.steps`).  The text goes through an array of fixed size, and
nothing looks at how long it is.
-/

namespace TASQuake

open Lib Parsed List

/-! ## Parsing one value -/

section Value

variable {eng : Engine} {sv sv' : Server} {d : Def} {val : ℕ → Word}

theorem vectorPieces_eq {x y z : Str} (hx : 32 ∉ x) (hy : 32 ∉ y) (hz : 32 ∉ z) :
    vectorPieces (x ++ str " " ++ y ++ str " " ++ z) = .ok (x, y, z) := by
  have hblank : str " " = [32] := rfl
  have hall : ∀ {l : Str}, 32 ∉ l → ∀ c ∈ l, decide (c ≠ 32) = true := by
    intro l hl c hc
    rw [decide_eq_true_eq]
    rintro rfl
    exact hl hc
  have hdrop : ∀ {l : Str}, 32 ∉ l → ∀ behind : Str,
      (l ++ 32 :: behind).dropWhile (fun c => decide (c ≠ 32)) = 32 :: behind := by
    intro l hl behind
    rw [dropWhile_append_of_pos (hall hl)]
    simp
  have htake : ∀ {l : Str}, 32 ∉ l → ∀ behind : Str,
      (l ++ 32 :: behind).takeWhile (fun c => decide (c ≠ 32)) = l := by
    intro l hl behind
    rw [takeWhile_append_of_pos (hall hl)]
    simp
  have hlast := takeWhile_eq_self_iff.mpr (hall hz)
  rw [hblank, append_assoc, append_assoc, append_assoc, singleton_append, singleton_append]
  unfold vectorPieces
  rw [hdrop hx]
  dsimp only
  rw [hdrop hy]
  dsimp only
  rw [htake hx, htake hy, hlast]

/-- What parsing the text of a value does to the variables. -/
structure ParsedValue (eng : Engine) (sv sv' : Server) (d : Def) (val : ℕ → Word)
    (base base' : Parsed) : Prop where
  others : ∀ o, o < d.ofs ∨ d.ofs + d.type.size ≤ o → base'.v o = base.v o
  float : d.type = .float → base'.v d.ofs = val 0
  entity : d.type = .entity → sv'.edictSize = sv.edictSize → base'.v d.ofs = val 0
  function : d.type = .function → sv.progs.functions.Nodup → base'.v d.ofs = val 0
  vector : d.type = .vector → ∀ j < 3, base'.v (d.ofs + j) = eng.atof (decimalInt (val j).toInt)

theorem Parsed.set_of_ne (base : Parsed) {ofs o : ℕ} (w : Word) (h : o ≠ ofs) :
    (base.set ofs w).v o = base.v o := by
  unfold set
  exact Function.update_of_ne h w base.v

theorem Parsed.set_self (base : Parsed) (ofs : ℕ) (w : Word) : (base.set ofs w).v ofs = w := by
  unfold set
  exact Function.update_self ofs w base.v

theorem ofNat_of_toInt {w : Word} {n : ℕ} (h : w.toInt = n) : BitVec.ofNat 32 n = w := by
  rw [← BitVec.ofInt_natCast, ← h, BitVec.ofInt_toInt]

theorem parsedValue_set {base : Parsed} {w : Word} (hsize : d.type.size = 1)
    (hfloat : d.type = .float → w = val 0)
    (hentity : d.type = .entity → sv'.edictSize = sv.edictSize → w = val 0)
    (hfunction : d.type = .function → sv.progs.functions.Nodup → w = val 0) (copies : List Str) :
    ParsedValue eng sv sv' d val base { base.set d.ofs w with copies := copies } := by
  have hset := base.set_self d.ofs w
  refine ⟨fun o ho => base.set_of_ne w (by omega), fun h => hset.trans (hfloat h),
    fun h he => hset.trans (hentity h he), fun h hf => hset.trans (hfunction h hf), fun h => ?_⟩
  rw [h] at hsize
  cases hsize

/-- **The text of a value that is there is parsed.** -/
theorem parseEpair_written (eng : Engine) (hprogs : sv'.progs = sv.progs)
    (hsize : 0 < sv.edictSize) (hedicts : sv.numEdicts ≤ maxEdicts)
    (hvalid : ValidValue sv d.type val) (globals : ℕ → Word) (base : Parsed) :
    ∃ base', parseEpair eng sv' globals base d (valueText sv d.type val) = .ok (some base') ∧
      ParsedValue eng sv sv' d val base base' := by
  unfold parseEpair
  cases htype : d.type with
  | string =>
    exact ⟨_, rfl, parsedValue_set (by rw [htype]; rfl) (by simp [htype]) (by simp [htype])
      (by simp [htype]) _⟩
  | float =>
    refine ⟨_, rfl, parsedValue_set (by rw [htype]; rfl) (fun _ => ?_) (by simp [htype])
      (by simp [htype]) _⟩
    show BitVec.ofInt 32 (atoi (decimalInt (val 0).toInt)) = val 0
    rw [atoi_decimalInt, BitVec.ofInt_toInt]
  | vector =>
    have hnot : ∀ w : Word, 32 ∉ decimalInt w.toInt :=
      fun w => notMem_decimalInt (by decide) (by decide) _
    have hlen₀ := length_decimalInt_word (val 0)
    have hlen₁ := length_decimalInt_word (val 1)
    have hlen₂ := length_decimalInt_word (val 2)
    have hblank : (str " ").length = 1 := rfl
    have hlen : ¬ 128 ≤ (valueText sv .vector val).length := by
      show ¬ 128 ≤ (decimalInt (val 0).toInt ++ str " " ++ decimalInt (val 1).toInt ++ str " " ++
        decimalInt (val 2).toInt).length
      simp only [length_append, hblank]
      omega
    have hpieces : vectorPieces (valueText sv .vector val) = .ok (decimalInt (val 0).toInt,
        decimalInt (val 1).toInt, decimalInt (val 2).toInt) :=
      vectorPieces_eq (hnot _) (hnot _) (hnot _)
    dsimp only
    rw [if_neg hlen, hpieces]
    refine ⟨_, rfl, fun o ho => ?_, by simp [htype], by simp [htype], by simp [htype],
      fun _ j hj => ?_⟩
    · have hthree : d.type.size = 3 := by rw [htype]; rfl
      rw [set_of_ne _ _ (by omega), set_of_ne _ _ (by omega), set_of_ne _ _ (by omega)]
    · interval_cases j
      · rw [set_of_ne _ _ (by omega), set_of_ne _ _ (by omega)]
        exact set_self _ _ _
      · rw [set_of_ne _ _ (by omega)]
        exact set_self _ _ _
      · exact set_self _ _ _
  | entity =>
    rw [htype] at hvalid
    obtain ⟨n, hn, hval⟩ := hvalid
    have hdiv : (val 0).toInt.tdiv sv.edictSize = n := by
      rw [hval]
      exact Int.mul_tdiv_cancel _ (by omega)
    have hnum : edictNum (atoi (valueText sv .entity val)) = .ok n := by
      show edictNum (atoi (decimalInt _)) = _
      rw [atoi_decimalInt, hdiv]
      unfold edictNum
      rw [if_neg (by omega), Int.toNat_natCast]
    dsimp only
    rw [hnum]
    refine ⟨_, rfl, parsedValue_set (by rw [htype]; rfl) (by simp [htype]) (fun _ hsame => ?_)
      (by simp [htype]) _⟩
    apply ofNat_of_toInt
    rw [hval, hsame]
    push_cast
    rfl
  | field =>
    rw [htype] at hvalid
    obtain ⟨e, he, hofs⟩ := hvalid
    have hfound : (sv.progs.fieldAtOfs (val 0).toInt).isSome = true := by
      unfold Progs.fieldAtOfs
      rw [find?_isSome]
      exact ⟨e, he, decide_eq_true hofs⟩
    obtain ⟨a, ha⟩ := Option.isSome_iff_exists.mp hfound
    have hname : valueText sv .field val = a.name := by
      show ((sv.progs.fieldAtOfs (val 0).toInt).map Def.name).getD [] = a.name
      rw [ha]
      rfl
    have hagain : (sv'.progs.findField a.name).isSome = true := by
      rw [hprogs]
      unfold Progs.findField
      rw [find?_isSome]
      exact ⟨a, mem_of_find?_eq_some ha, decide_eq_true rfl⟩
    obtain ⟨b, hb⟩ := Option.isSome_iff_exists.mp hagain
    rw [hname, hb]
    exact ⟨_, rfl, parsedValue_set (by rw [htype]; rfl) (by simp [htype]) (by simp [htype])
      (by simp [htype]) _⟩
  | function =>
    rw [htype] at hvalid
    obtain ⟨f, hf, hval⟩ := hvalid
    have hname : valueText sv .function val = sv.progs.functions[f] := by
      show (sv.progs.functions[(val 0).toInt.toNat]?).getD [] = _
      rw [hval, Int.toNat_natCast, getElem?_eq_getElem hf]
      rfl
    have hfound : (sv'.progs.findFunction sv.progs.functions[f]).isSome = true := by
      rw [hprogs]
      unfold Progs.findFunction
      rw [findIdx?_isSome, any_eq_true]
      exact ⟨_, getElem_mem hf, decide_eq_true rfl⟩
    obtain ⟨g, hg⟩ := Option.isSome_iff_exists.mp hfound
    rw [hname, hg]
    refine ⟨_, rfl, parsedValue_set (by rw [htype]; rfl) (by simp [htype]) (by simp [htype])
      (fun _ hunique => ?_) _⟩
    rw [hprogs] at hg
    obtain ⟨hlt, hsame, -⟩ := findIdx?_eq_some_iff_getElem.mp hg
    have heq : g = f := hunique.getElem_inj_iff.mp (of_decide_eq_true hsame)
    rw [heq]
    exact ofNat_of_toInt hval
  | void =>
    exact ⟨base, rfl, fun _ _ => rfl, by simp [htype], by simp [htype], by simp [htype],
      by simp [htype]⟩
  | pointer =>
    exact ⟨base, rfl, fun _ _ => rfl, by simp [htype], by simp [htype], by simp [htype],
      by simp [htype]⟩

end Value

/-! ## Parsing the pairs of an edict -/

/-- The names of the fields, as qcc emits them: identifiers, so neither blank at the end nor long,
all different; and none that the parser takes for another one or skips. -/
structure FieldNames (progs : Progs) : Prop extends PlainNames progs where
  unique : (progs.fieldDefs.map Def.name).Nodup
  angle : ∀ d ∈ progs.fieldDefs, d.name ≠ str "angle"
  light : ∀ d ∈ progs.fieldDefs, d.name ≠ str "light"
  underscore : ∀ d ∈ progs.fieldDefs, d.name.head? ≠ some 95
  blank : ∀ d ∈ progs.fieldDefs, d.name.getLast? ≠ some 32

section Pairs

variable {eng : Engine} {sv sv' : Server} {d : Def} {v : ℕ → Word}

theorem FieldNames.findField {progs : Progs} (h : FieldNames progs) (hd : d ∈ progs.fieldDefs) :
    progs.findField d.name = some d :=
  entryAt_of_mem h.unique hd

theorem FieldNames.edictKey {progs : Progs} (h : FieldNames progs) (hd : d ∈ progs.fieldDefs) :
    edictKey d.name = d.name := by
  unfold TASQuake.edictKey
  rw [if_neg (h.angle d hd), if_neg (h.light d hd), rdropWhile_eq_self_iff]
  intro hne hlast
  apply h.blank d hd
  rw [getLast?_eq_getLast_of_ne_nil hne, of_decide_eq_true hlast]

/-- What the servers have in common and what their values are like. -/
structure SameGame (sv sv' : Server) : Prop where
  progs : sv'.progs = sv.progs
  names : FieldNames sv.progs
  size_pos : 0 < sv.edictSize
  num_le : sv.numEdicts ≤ maxEdicts

theorem edictPair_written (eng : Engine) (h : SameGame sv sv') (hd : d ∈ sv.progs.fieldDefs)
    (hvalid : ValidValue sv d.type (wordsAt v d.ofs)) (base : Parsed) :
    ∃ base', (∀ init, edictPair eng sv' d.name (valueText sv d.type (wordsAt v d.ofs))
        (base, init) = .ok (base', true)) ∧
      ParsedValue eng sv sv' d (wordsAt v d.ofs) base base' := by
  obtain ⟨base', hparse, hparsed⟩ :=
    parseEpair_written eng h.progs h.size_pos h.num_le hvalid sv'.globals base
  refine ⟨base', fun init => ?_, hparsed⟩
  unfold edictPair edictValue
  rw [h.names.edictKey hd, if_neg (h.names.underscore d hd), h.progs, h.names.findField hd]
  rw [if_neg (h.names.angle d hd)]
  show (parseEpair eng sv' sv'.globals base d _).bind _ = _
  rw [hparse]
  rfl

/-- The parser goes through the pairs of some fields. -/
def Steps (eng : Engine) (sv sv' : Server) (v : ℕ → Word) (defs : List Def)
    (base base' : Parsed) : Prop :=
  ∀ init, ∃ init', (fieldPairs sv v defs).foldlM (fun state p => edictPair eng sv' p.1 p.2 state)
    (base, init) = .ok (base', init')

theorem Steps.nil (base : Parsed) : Steps eng sv sv' v [] base base :=
  fun init => ⟨init, rfl⟩

theorem Steps.append {defs defs' : List Def} {a b c : Parsed} (h : Steps eng sv sv' v defs a b)
    (h' : Steps eng sv sv' v defs' b c) : Steps eng sv sv' v (defs ++ defs') a c := by
  intro init
  obtain ⟨init₁, h₁⟩ := h init
  obtain ⟨init₂, h₂⟩ := h' init₁
  refine ⟨init₂, ?_⟩
  unfold fieldPairs at h₁ h₂ ⊢
  rw [filter_append, map_append, foldlM_append, h₁]
  exact h₂

theorem isZero_eq_true_iff {type : EType} {val : ℕ → Word} :
    isZero type val = true ↔ ∀ j < type.size, val j = 0 := by
  unfold isZero
  simp

theorem steps_singleton (eng : Engine) (h : SameGame sv sv') (hd : d ∈ sv.progs.fieldDefs)
    (hvalid : isZero d.type (wordsAt v d.ofs) = false → ValidValue sv d.type (wordsAt v d.ofs))
    (base : Parsed) :
    ∃ base', Steps eng sv sv' v [d] base base' ∧
      ((∀ j < d.type.size, v (d.ofs + j) = 0) ∧ base' = base ∨
        ParsedValue eng sv sv' d (wordsAt v d.ofs) base base') := by
  cases hzero : isZero d.type (wordsAt v d.ofs) with
  | true =>
    refine ⟨base, fun init => ⟨init, ?_⟩, .inl ⟨isZero_eq_true_iff.mp hzero, rfl⟩⟩
    unfold fieldPairs
    rw [filter_cons_of_neg (by simp [hzero])]
    rfl
  | false =>
    obtain ⟨base', hpair, hparsed⟩ := edictPair_written eng h hd (hvalid hzero) base
    refine ⟨base', fun init => ⟨true, ?_⟩, .inr hparsed⟩
    unfold fieldPairs
    rw [filter_cons_of_pos (by simp [hzero])]
    show (edictPair eng sv' d.name (valueText sv d.type (wordsAt v d.ofs)) (base, init)).bind _ = _
    rw [hpair]
    rfl

/-- The types whose values come back. -/
def EType.IsRestored : EType → Prop
  | .float => True
  | .vector => True
  | .entity => True
  | .function => True
  | _ => False

/-- What has to be the same for entities and functions to come back. -/
structure SameNumbers (sv sv' : Server) : Prop extends SameGame sv sv' where
  edictSize : sv'.edictSize = sv.edictSize
  functions : sv.progs.functions.Nodup

theorem size_of_ne_vector {type : EType} (h : type ≠ .vector) : type.size = 1 := by
  cases type with
  | vector => exact absurd rfl h
  | _ => rfl

/-- **A variable of one word** comes back, if it is left at 0 when its pair is not written. -/
theorem steps_word (eng : Engine) (h : SameNumbers sv sv') (hd : d ∈ sv.progs.fieldDefs)
    (hvalid : isZero d.type (wordsAt v d.ofs) = false → ValidValue sv d.type (wordsAt v d.ofs))
    (htype : d.type ≠ .vector) (base : Parsed) (hbase : v d.ofs = 0 → base.v d.ofs = 0) :
    ∃ base', Steps eng sv sv' v [d] base base' ∧ (∀ o, o ≠ d.ofs → base'.v o = base.v o) ∧
      (d.type.IsRestored → base'.v d.ofs = v d.ofs) := by
  have hsize := size_of_ne_vector htype
  obtain ⟨base', hsteps, hcases⟩ := steps_singleton eng h.toSameGame hd hvalid base
  refine ⟨base', hsteps, ?_⟩
  rcases hcases with ⟨hzero, rfl⟩ | hparsed
  · have hword : v d.ofs = 0 := hzero 0 (by omega)
    exact ⟨fun _ _ => rfl, fun _ => by rw [hbase hword, hword]⟩
  · refine ⟨fun o ho => hparsed.others o (by omega), fun hrestored => ?_⟩
    cases ht : d.type with
    | float => exact hparsed.float ht
    | entity => exact hparsed.entity ht h.edictSize
    | function => exact hparsed.function ht h.functions
    | vector => exact absurd ht htype
    | _ =>
      rw [ht] at hrestored
      exact hrestored.elim

/-- **A vector**: the components that are 0 come back. -/
theorem steps_vector (eng : Engine) (hatof : eng.atof (str "0") = 0) (h : SameGame sv sv')
    (hd : d ∈ sv.progs.fieldDefs) (htype : d.type = .vector) (base : Parsed)
    (hbase : ∀ j < 3, base.v (d.ofs + j) = 0) :
    ∃ base', Steps eng sv sv' v [d] base base' ∧
      (∀ o, o < d.ofs ∨ d.ofs + 3 ≤ o → base'.v o = base.v o) ∧
      ∀ j < 3, v (d.ofs + j) = 0 → base'.v (d.ofs + j) = 0 := by
  have hsize : d.type.size = 3 := by
    rw [htype]
    rfl
  have hvalid : isZero d.type (wordsAt v d.ofs) = false →
      ValidValue sv d.type (wordsAt v d.ofs) := by
    intro _
    rw [htype]
    trivial
  obtain ⟨base', hsteps, hcases⟩ := steps_singleton eng h hd hvalid base
  refine ⟨base', hsteps, ?_⟩
  rcases hcases with ⟨-, rfl⟩ | hparsed
  · exact ⟨fun _ _ => rfl, fun j hj _ => hbase j hj⟩
  · refine ⟨fun o ho => hparsed.others o (by omega), fun j hj hword => ?_⟩
    have hread : wordsAt v d.ofs j = 0 := hword
    rw [hparsed.vector htype j hj, hread]
    exact hatof

end Pairs

/-- **The text of an edict is parsed pair by pair.** -/
theorem ssEdParseEdict_eq (eng : Engine) (sv : Server) {pairs : List (Str × Str)}
    (hpairs : ∀ p ∈ pairs, PlainPair 256 p) (copies : List Str) (n : ℕ) (ent : Edict) :
    ssEdParseEdict eng sv copies (pairsText pairs ++ str "\x7d") n ent =
      (pairs.foldlM (fun state p => edictPair eng sv p.1 p.2 state)
        ({ v := if n = 0 then ent.v else fun _ => 0, copies := copies }, false)).map fun r =>
          ({ free := if r.2 then ent.free else true, v := r.1.v }, r.1.copies) := by
  have hfuel : pairs.length < (pairsText pairs ++ str "\x7d").length + 1 := by
    have hle := length_le_pairsText pairs
    rw [length_append]
    omega
  unfold ssEdParseEdict
  dsimp only
  rw [parsePairs_eq_foldlM (by decide) hpairs hfuel]
  cases pairs.foldlM (fun state p => edictPair eng sv p.1 p.2 state)
    ({ v := if n = 0 then ent.v else fun _ => 0, copies := copies }, false) with
  | error fault => rfl
  | ok r => rfl

/-! ## Field tables -/

/-- A part of the field table: one variable, or a vector with the floats of its components right
behind it. -/
inductive FieldGroup where
  | single (d : Def) (h : d.type ≠ .vector)
  | vector (name x y z : Str) (ofs : ℕ)

namespace FieldGroup

/-- The definitions of a part. -/
def defs : FieldGroup → List Def
  | .single d _ => [d]
  | .vector name x y z ofs =>
    [{ type := .vector, ofs := ofs, name := name }, { type := .float, ofs := ofs, name := x },
      { type := .float, ofs := ofs + 1, name := y }, { type := .float, ofs := ofs + 2, name := z }]

/-- The words of a part. -/
def words : FieldGroup → List ℕ
  | .single d _ => [d.ofs]
  | .vector _ _ _ _ ofs => [ofs, ofs + 1, ofs + 2]

theorem mem_words {g : FieldGroup} {d : Def} (hd : d ∈ g.defs) {j : ℕ} (hj : j < d.type.size) :
    d.ofs + j ∈ g.words := by
  cases g with
  | single e he =>
    obtain rfl := mem_singleton.mp hd
    have hsize := size_of_ne_vector he
    have hzero : j = 0 := by omega
    rw [hzero]
    exact mem_cons_self
  | vector name x y z ofs =>
    simp only [defs, mem_cons, not_mem_nil, or_false] at hd
    simp only [words, mem_cons, not_mem_nil, or_false]
    rcases hd with rfl | rfl | rfl | rfl
    · have hthree : j < 3 := hj
      show ofs + j = ofs ∨ ofs + j = ofs + 1 ∨ ofs + j = ofs + 2
      omega
    · have hone : j < 1 := hj
      show ofs + j = ofs ∨ ofs + j = ofs + 1 ∨ ofs + j = ofs + 2
      omega
    · have hone : j < 1 := hj
      show ofs + 1 + j = ofs ∨ ofs + 1 + j = ofs + 1 ∨ ofs + 1 + j = ofs + 2
      omega
    · have hone : j < 1 := hj
      show ofs + 2 + j = ofs ∨ ofs + 2 + j = ofs + 1 ∨ ofs + 2 + j = ofs + 2
      omega

variable {eng : Engine} {sv sv' : Server} {v : ℕ → Word}

/-- **The part of a table** is parsed, from 0, to what was written. -/
theorem steps (eng : Engine) (hatof : eng.atof (str "0") = 0) (h : SameNumbers sv sv')
    {g : FieldGroup} (hdefs : ∀ d ∈ g.defs, d ∈ sv.progs.fieldDefs)
    (hvalid : ∀ d ∈ g.defs, isZero d.type (wordsAt v d.ofs) = false →
      ValidValue sv d.type (wordsAt v d.ofs))
    (base : Parsed) (hbase : ∀ o ∈ g.words, base.v o = 0) :
    ∃ base', Steps eng sv sv' v g.defs base base' ∧ (∀ o, o ∉ g.words → base'.v o = base.v o) ∧
      ∀ d ∈ g.defs, d.type.IsRestored → ∀ j < d.type.size, base'.v (d.ofs + j) = v (d.ofs + j) := by
  cases g with
  | single d hd =>
    obtain ⟨base', hsteps, hothers, hword⟩ := steps_word eng h (hdefs d mem_cons_self)
      (hvalid d mem_cons_self) hd base fun _ => hbase d.ofs mem_cons_self
    refine ⟨base', hsteps, fun o ho => hothers o ?_, fun e he hrestored j hj => ?_⟩
    · rintro rfl
      exact ho mem_cons_self
    · obtain rfl := mem_singleton.mp he
      have hsize := size_of_ne_vector hd
      have hzero : j = 0 := by omega
      rw [hzero]
      exact hword hrestored
  | vector name x y z ofs =>
    have hbase' : ∀ j < 3, base.v (ofs + j) = 0 := by
      intro j hj
      apply hbase
      simp only [words, mem_cons, not_mem_nil, or_false]
      omega
    have hmem : ∀ {e : Def}, e ∈ (FieldGroup.vector name x y z ofs).defs → e ∈ sv.progs.fieldDefs :=
      fun he => hdefs _ he
    obtain ⟨b₀, h₀, hothers₀, hzero₀⟩ := steps_vector (v := v) eng hatof h.toSameGame
      (hmem mem_cons_self) rfl base hbase'
    -- each component is written where it is not 0, and read as 0 with the vector where it is
    obtain ⟨b₁, h₁, hothers₁, hword₁⟩ := steps_word eng h
      (hmem (mem_cons_of_mem _ mem_cons_self)) (fun _ => trivial) nofun b₀
      (hzero₀ 0 (by omega))
    obtain ⟨b₂, h₂, hothers₂, hword₂⟩ := steps_word eng h
      (hmem (mem_cons_of_mem _ (mem_cons_of_mem _ mem_cons_self)))
      (fun _ => trivial) nofun b₁ fun hv => by
        rw [hothers₁ _ (by show ofs + 1 ≠ ofs; omega)]
        exact hzero₀ 1 (by omega) hv
    obtain ⟨b₃, h₃, hothers₃, hword₃⟩ := steps_word eng h
      (hmem (mem_cons_of_mem _ (mem_cons_of_mem _ (mem_cons_of_mem _
        mem_cons_self)))) (fun _ => trivial) nofun b₂ fun hv => by
        rw [hothers₂ _ (by show ofs + 2 ≠ ofs + 1; omega),
          hothers₁ _ (by show ofs + 2 ≠ ofs; omega)]
        exact hzero₀ 2 (by omega) hv
    have hcomponents : ∀ j < 3, b₃.v (ofs + j) = v (ofs + j) := by
      intro j hj
      interval_cases j
      · rw [hothers₃ _ (by show ofs + 0 ≠ ofs + 2; omega),
          hothers₂ _ (by show ofs + 0 ≠ ofs + 1; omega)]
        exact hword₁ trivial
      · rw [hothers₃ _ (by show ofs + 1 ≠ ofs + 2; omega)]
        exact hword₂ trivial
      · exact hword₃ trivial
    refine ⟨b₃, ((h₀.append h₁).append h₂).append h₃, fun o ho => ?_, fun d hd _ j hj => ?_⟩
    · simp only [words, mem_cons, not_mem_nil, or_false, not_or] at ho
      rw [hothers₃ o ho.2.2, hothers₂ o ho.2.1, hothers₁ o ho.1]
      apply hothers₀
      show o < ofs ∨ ofs + 3 ≤ o
      omega
    · have hin := mem_words hd hj
      simp only [words, mem_cons, not_mem_nil, or_false] at hin
      obtain ⟨i, hi, heq⟩ : ∃ i < 3, d.ofs + j = ofs + i := by
        rcases hin with hin | hin | hin
        · exact ⟨0, by omega, hin⟩
        · exact ⟨1, by omega, hin⟩
        · exact ⟨2, by omega, hin⟩
      rw [heq]
      exact hcomponents i hi

/-- **A whole table.** -/
theorem steps_groups (eng : Engine) (hatof : eng.atof (str "0") = 0) (h : SameNumbers sv sv')
    {groups : List FieldGroup}
    (hdefs : ∀ d ∈ groups.flatMap defs, d ∈ sv.progs.fieldDefs)
    (hvalid : ∀ d ∈ groups.flatMap defs, isZero d.type (wordsAt v d.ofs) = false →
      ValidValue sv d.type (wordsAt v d.ofs))
    (hwords : (groups.flatMap words).Nodup) (base : Parsed)
    (hbase : ∀ o ∈ groups.flatMap words, base.v o = 0) :
    ∃ base', Steps eng sv sv' v (groups.flatMap defs) base base' ∧
      (∀ o, o ∉ groups.flatMap words → base'.v o = base.v o) ∧
      ∀ d ∈ groups.flatMap defs, d.type.IsRestored → ∀ j < d.type.size,
        base'.v (d.ofs + j) = v (d.ofs + j) := by
  induction groups generalizing base with
  | nil => exact ⟨base, .nil base, fun _ _ => rfl, nofun⟩
  | cons g groups ih =>
    simp only [flatMap_cons, mem_append] at hdefs hvalid hbase ⊢
    obtain ⟨-, hrest, hdisjoint⟩ := nodup_append.mp hwords
    obtain ⟨b₁, h₁, hothers₁, hrestored₁⟩ := steps eng hatof h (fun d hd => hdefs d (.inl hd))
      (fun d hd => hvalid d (.inl hd)) base fun o ho => hbase o (.inl ho)
    have hzero : ∀ o ∈ groups.flatMap words, b₁.v o = 0 := by
      intro o ho
      rw [hothers₁ o fun hg => hdisjoint o hg o ho rfl]
      exact hbase o (.inr ho)
    obtain ⟨b₂, h₂, hothers₂, hrestored₂⟩ := ih (fun d hd => hdefs d (.inr hd))
      (fun d hd => hvalid d (.inr hd)) hrest b₁ hzero
    refine ⟨b₂, h₁.append h₂, fun o ho => ?_, fun d hd hres j hj => ?_⟩
    · rw [not_or] at ho
      rw [hothers₂ o ho.2, hothers₁ o ho.1]
    · rcases hd with hd | hd
      · -- the later parts leave the words of this one alone
        rw [hothers₂ _ fun hlater => hdisjoint _ (mem_words hd hj) _ hlater rfl]
        exact hrestored₁ d hd hres j hj
      · exact hrestored₂ d hd hres j hj

end FieldGroup

/-! ## Grabbing the text -/

theorem grabLoop_eq {body behind : Str} (hbrace : 125 ∉ body) {c : UInt8} {rest : Str}
    (h : c :: rest = body ++ 125 :: behind) :
    grabLoop c rest = (body ++ [125], { bytes := behind }) := by
  induction body generalizing c rest with
  | nil =>
    obtain ⟨rfl, rfl⟩ := cons.inj h
    cases rest with
    | nil => rfl
    | cons next rest => rfl
  | cons b body ih =>
    obtain ⟨rfl, hrest⟩ := cons.inj h
    rw [mem_cons, not_or] at hbrace
    have hc : c ≠ 125 := fun hc => hbrace.1 hc.symm
    cases rest with
    | nil =>
      have hlen := congrArg length hrest
      simp at hlen
    | cons next rest =>
      unfold grabLoop
      rw [if_neg hc, ih hbrace.2 hrest]
      rfl

theorem grabEntity_eq (stale : UInt8) {body : Str} (hbrace : 125 ∉ body) (behind : Str) :
    grabEntity stale { bytes := body ++ 125 :: behind } =
      if body.length + 1 < strSize then .ok (body ++ [125], { bytes := behind })
      else .error .undefined := by
  obtain ⟨c, rest, hcons⟩ : ∃ c rest, body ++ 125 :: behind = c :: rest := by
    cases body with
    | nil => exact ⟨_, _, rfl⟩
    | cons d body => exact ⟨_, _, rfl⟩
  have hloop := grabLoop_eq hbrace hcons.symm
  have hlen : (body ++ [125]).length + 1 = body.length + 1 + 1 := by
    rw [length_append]
    rfl
  unfold grabEntity
  rw [hcons]
  show (if (grabLoop c rest).1.length + 1 ≤ strSize then
    Except.ok ((grabLoop c rest).1, (grabLoop c rest).2) else .error Fault.undefined) = _
  rw [hloop, hlen]
  rfl

end TASQuake

/-! ## The result -/

namespace TASQuake.Analysis.EdictRoundTrip

open Lib List

/-- A field table as qcc emits it: the first definition is not used, a vector is followed by its
components, and no two variables share a word. -/
structure QccTable (progs : Progs) (first : Def) (groups : List FieldGroup) : Prop where
  fieldDefs : progs.fieldDefs = first :: groups.flatMap FieldGroup.defs
  first_void : first.type = .void
  disjoint : (groups.flatMap FieldGroup.words).Nodup

/-- The variables of an edict: entities, functions and fields that are there, and strings that fit
and have neither quotes nor braces. -/
structure ValidVariables (sv : Server) (v : ℕ → Word) : Prop where
  valid : ∀ d ∈ sv.progs.fieldDefs.drop 1, isZero d.type (wordsAt v d.ofs) = false →
    ValidValue sv d.type (wordsAt v d.ofs)
  strings : ∀ d ∈ sv.progs.fieldDefs.drop 1, d.type = .string → v d.ofs ≠ 0 →
    PlainText (sv.strings (v d.ofs))

/-- The text of the variables can be grabbed and parsed into an edict that is all 0, and every
float, vector, entity and function comes back. -/
def Restored (eng : Engine) (stale : UInt8) (sv sv' : Server) (v : ℕ → Word) (copies : List Str)
    (n : ℕ) : Prop :=
  ∃ text, edWrite sv v = .ok text ∧ ∀ behind, ∃ grabbed ent copies',
    grabEntity stale { bytes := text ++ behind } = .ok (grabbed, { bytes := behind }) ∧
    ssEdParseEdict eng sv' copies grabbed n {} = .ok (ent, copies') ∧
    ∀ d ∈ sv.progs.fieldDefs, d.type.IsRestored → ∀ j < d.type.size,
      ent.v (d.ofs + j) = v (d.ofs + j)

/-- The length of the text: for every variable that is not 0 its name, its value, four quotes, a
blank and the end of the line, and the closing brace. -/
def textLength (sv : Server) (v : ℕ → Word) : ℕ :=
  ((fieldPairs sv v (sv.progs.fieldDefs.drop 1)).map fun p => p.1.length + p.2.length + 6).sum + 1

section Result

variable {eng : Engine} {sv sv' : Server} {v : ℕ → Word}

theorem plainText_of_mem_fieldPairs (h : SameGame sv sv') (hv : ValidVariables sv v)
    {p : Str × Str} (hp : p ∈ fieldPairs sv v (sv.progs.fieldDefs.drop 1)) :
    PlainText p.1 ∧ PlainText p.2 := by
  obtain ⟨d, hd, rfl⟩ := mem_map.mp hp
  obtain ⟨hd, hzero⟩ := mem_filter.mp hd
  have hmem := mem_of_mem_drop hd
  refine ⟨h.names.fields d hmem, ?_⟩
  rw [Bool.not_eq_true'] at hzero
  by_cases hstring : d.type = .string
  · have htext : PlainText (sv.strings (v d.ofs)) := by
      apply hv.strings d hd hstring
      intro hword
      rw [hstring] at hzero
      have hall : isZero .string (wordsAt v d.ofs) = true := by
        simpa [isZero_eq_true_iff, EType.size, wordsAt] using hword
      rw [hall] at hzero
      cases hzero
    rw [hstring]
    exact htext
  · exact plainText_valueText h.names.toPlainNames h.size_pos (hv.valid d hd hzero) hstring

theorem edWrite_eq (h : SameGame sv sv') (hv : ValidVariables sv v) :
    edWrite sv v = .ok (pairsText (fieldPairs sv v (sv.progs.fieldDefs.drop 1)) ++ str "\x7d") :=
  (edWrite_eq_ok_iff h.size_pos hv.valid).mpr
    ⟨fun _ hp => (plainText_of_mem_fieldPairs h hv hp).2.length_lt, rfl⟩

theorem brace_notMem_pairsText (h : SameGame sv sv') (hv : ValidVariables sv v) :
    125 ∉ pairsText (fieldPairs sv v (sv.progs.fieldDefs.drop 1)) := by
  rw [brace_mem_pairsText]
  rintro ⟨p, hp, hbrace⟩
  obtain ⟨hkey, hvalue⟩ := plainText_of_mem_fieldPairs h hv hp
  exact hbrace.elim hkey.brace hvalue.brace

theorem textLength_eq (sv : Server) (v : ℕ → Word) :
    textLength sv v = (pairsText (fieldPairs sv v (sv.progs.fieldDefs.drop 1))).length + 1 := by
  unfold textLength
  rw [length_pairsText]

theorem textLength_lt_of_restored (h : SameGame sv sv') (hv : ValidVariables sv v)
    {stale : UInt8} {copies : List Str} {n : ℕ} (hr : Restored eng stale sv sv' v copies n) :
    textLength sv v < strSize := by
  obtain ⟨text, hwrite, hread⟩ := hr
  rw [edWrite_eq h hv] at hwrite
  obtain rfl := Except.ok.inj hwrite
  obtain ⟨grabbed, -, -, hgrab, -⟩ := hread []
  rw [append_assoc] at hgrab
  have heq := grabEntity_eq stale (brace_notMem_pairsText h hv) []
  by_contra hlong
  rw [textLength_eq] at hlong
  rw [if_neg hlong] at heq
  have hsame : pairsText (fieldPairs sv v (sv.progs.fieldDefs.drop 1)) ++ (str "\x7d" ++ []) =
      pairsText (fieldPairs sv v (sv.progs.fieldDefs.drop 1)) ++ 125 :: [] := rfl
  rw [hsame, heq] at hgrab
  cases hgrab

theorem restored_of_textLength_lt (hatof : eng.atof (str "0") = 0) (h : SameNumbers sv sv')
    {first : Def} {groups : List FieldGroup} (htable : QccTable sv.progs first groups)
    (hv : ValidVariables sv v) (stale : UInt8) (copies : List Str) (n : ℕ)
    (hlen : textLength sv v < strSize) : Restored eng stale sv sv' v copies n := by
  have hdrop : sv.progs.fieldDefs.drop 1 = groups.flatMap FieldGroup.defs := by
    rw [htable.fieldDefs]
    rfl
  have hmem : ∀ d ∈ groups.flatMap FieldGroup.defs, d ∈ sv.progs.fieldDefs := by
    intro d hd
    rw [htable.fieldDefs]
    exact mem_cons_of_mem _ hd
  have hplain : ∀ p ∈ fieldPairs sv v (sv.progs.fieldDefs.drop 1), PlainPair 256 p := by
    intro p hp
    obtain ⟨hkey, hvalue⟩ := plainText_of_mem_fieldPairs h.toSameGame hv hp
    exact ⟨hkey.length_lt, hvalue.length_lt.trans (by decide), hkey.quote, hvalue.quote,
      fun hhead => hkey.brace (mem_of_mem_head? hhead),
      fun hhead => hvalue.brace (mem_of_mem_head? hhead)⟩
  obtain ⟨base, hsteps, -, hrestored⟩ := FieldGroup.steps_groups eng hatof h hmem
    (fun d hd => hv.valid d (hdrop ▸ hd)) htable.disjoint { v := fun _ => 0, copies := copies }
    fun _ _ => rfl
  obtain ⟨init, hfold⟩ := hsteps false
  rw [← hdrop] at hfold
  have hparse := ssEdParseEdict_eq eng sv' hplain copies n {}
  rw [ite_self, hfold] at hparse
  refine ⟨_, edWrite_eq h.toSameGame hv, fun behind => ⟨_, _, _, ?_, hparse,
    fun d hd hres j hj => ?_⟩⟩
  · have hgrab := grabEntity_eq stale (brace_notMem_pairsText h.toSameGame hv) behind
    rw [textLength_eq] at hlen
    rw [if_pos hlen] at hgrab
    rw [append_assoc]
    exact hgrab
  · rw [htable.fieldDefs] at hd
    rcases mem_cons.mp hd with rfl | hd
    · rw [htable.first_void] at hres
      exact hres.elim
    · exact hrestored d hd hres j hj

end Result

/-- **The variables of an edict come back from its text** exactly if the text fits into the array
that it is grabbed into. -/
theorem fields_restored_iff (eng : Engine) (hatof : eng.atof (str "0") = 0) {sv sv' : Server}
    (h : SameNumbers sv sv') {first : Def} {groups : List FieldGroup}
    (htable : QccTable sv.progs first groups) {v : ℕ → Word} (hv : ValidVariables sv v)
    (stale : UInt8) (copies : List Str) (n : ℕ) :
    Restored eng stale sv sv' v copies n ↔ textLength sv v < strSize :=
  ⟨textLength_lt_of_restored h.toSameGame hv,
    restored_of_textLength_lt hatof h htable hv stale copies n⟩

/-- An engine that reads all numbers but 0 as 1. -/
def exampleEngine : Engine where
  atof := fun s => if s = str "0" then 0 else 1
  address := fun copies => BitVec.ofNat 32 copies.length

/-- The definition that is not used. -/
def unusedDef : Def := { type := .void, ofs := 0, name := [] }

/-- The fields of a small game. -/
def exampleGroups : List FieldGroup :=
  [.vector (str "origin") (str "origin_x") (str "origin_y") (str "origin_z") 1,
    .single { type := .float, ofs := 4, name := str "health" } nofun,
    .single { type := .entity, ofs := 5, name := str "enemy" } nofun,
    .single { type := .function, ofs := 6, name := str "think" } nofun,
    .single { type := .string, ofs := 7, name := str "netname" } nofun]

/-- A small game with two edicts. -/
def exampleServer : Server where
  progs :=
    { fieldDefs := unusedDef :: exampleGroups.flatMap FieldGroup.defs
      globalDefs := []
      functions := [[], str "PlayerThink"] }
  strings := fun _ => str "player"
  edictSize := 600
  numEdicts := 2
  globals := fun _ => 0
  edicts := fun _ => {}

/-- The origin is (-0, 0, NaN), the health a denormal number; the enemy is edict 1 and the function
is `PlayerThink`. -/
def exampleVariables : ℕ → Word
  | 1 => 0x80000000
  | 3 => 0x7fc00001
  | 4 => 1
  | 5 => 600
  | 6 => 1
  | 7 => 12
  | _ => 0

theorem fieldNames_example : FieldNames exampleServer.progs :=
  ⟨⟨by decide +kernel, by decide +kernel⟩, by decide +kernel, by decide +kernel, by decide +kernel,
    by decide +kernel, by decide +kernel⟩

theorem validValue_example {d : Def} (hd : d ∈ exampleServer.progs.fieldDefs) :
    ValidValue exampleServer d.type (wordsAt exampleVariables d.ofs) := by
  simp only [exampleServer, exampleGroups, FieldGroup.defs, flatMap_cons, flatMap_nil,
    mem_cons, mem_append, not_mem_nil, or_false, unusedDef] at hd
  rcases hd with rfl | (rfl | rfl | rfl | rfl) | rfl | rfl | rfl | rfl
  · trivial
  · trivial
  · trivial
  · trivial
  · trivial
  · trivial
  · exact ⟨1, by decide, by decide⟩
  · exact ⟨1, by decide, by decide⟩
  · trivial

/-- They come back. -/
theorem fields_restored_example :
    Restored exampleEngine 0 exampleServer exampleServer exampleVariables [] 1 := by
  have htable : QccTable exampleServer.progs unusedDef exampleGroups := ⟨rfl, rfl, by decide⟩
  have hv : ValidVariables exampleServer exampleVariables := by
    refine ⟨fun d hd _ => validValue_example (List.mem_of_mem_drop hd), fun d _ _ _ => ?_⟩
    show PlainText (str "player")
    decide
  exact (fields_restored_iff exampleEngine (by decide)
    ⟨⟨rfl, fieldNames_example, by decide, by decide⟩, rfl, by decide⟩ htable hv 0 [] 1).mpr
    (by decide +kernel)

/-- A table with 125 strings. -/
def manyGroups : List FieldGroup :=
  (List.range 125).map fun i =>
    .single { type := .string, ofs := i, name := str "f" ++ decimal i } nofun

/-- A game in which every string has 255 characters. -/
def manyStrings : Server where
  progs :=
    { fieldDefs := unusedDef :: manyGroups.flatMap FieldGroup.defs
      globalDefs := []
      functions := [] }
  strings := fun _ => List.replicate 255 97
  edictSize := 600
  numEdicts := 1
  globals := fun _ => 0
  edicts := fun _ => {}

theorem names_manyStrings : manyStrings.progs.fieldDefs.map Def.name =
    [] :: (List.range 125).map fun i => str "f" ++ decimal i := by
  simp only [manyStrings, manyGroups, unusedDef, FieldGroup.defs, map_cons, flatMap_map,
    map_flatMap, map_nil]
  rw [map_eq_flatMap]

theorem nodup_names_manyStrings : (manyStrings.progs.fieldDefs.map Def.name).Nodup := by
  rw [names_manyStrings, nodup_cons]
  constructor
  · simp [str]
  · refine nodup_range.map fun i j hij => ?_
    have hdecimal := append_cancel_left hij
    rw [← ofDecimal_decimal i, hdecimal, ofDecimal_decimal]

/-- Their text has more than 32767 characters. -/
theorem many_strings_not_restored :
    SameNumbers manyStrings manyStrings ∧ QccTable manyStrings.progs unusedDef manyGroups ∧
    ValidVariables manyStrings (fun _ => 1) ∧
    ¬ Restored exampleEngine 0 manyStrings manyStrings (fun _ => 1) [] 1 := by
  have hnames : FieldNames manyStrings.progs :=
    ⟨⟨by decide +kernel, by decide +kernel⟩, nodup_names_manyStrings, by decide +kernel,
      by decide +kernel, by decide +kernel, by decide +kernel⟩
  have hsame : SameNumbers manyStrings manyStrings :=
    ⟨⟨rfl, hnames, by decide, by decide⟩, rfl, by decide⟩
  have htype : ∀ d ∈ manyStrings.progs.fieldDefs, d.type = .void ∨ d.type = .string := by
    decide +kernel
  have hv : ValidVariables manyStrings (fun _ => 1) := by
    constructor
    · intro d hd _
      rcases htype d (List.mem_of_mem_drop hd) with h | h
      · rw [h]
        trivial
      · rw [h]
        trivial
    · intro d _ _ _
      decide +kernel
  refine ⟨hsame, ⟨rfl, rfl, by decide +kernel⟩, hv, fun hr => ?_⟩
  exact absurd (textLength_lt_of_restored hsame.toSameGame hv hr) (by decide +kernel)

end TASQuake.Analysis.EdictRoundTrip
