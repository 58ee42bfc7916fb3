import TASQuake.Analysis.EdictRoundTrip

/-!
# The edicts of a savestate delimit themselves

`GrabEntity` looks for the first closing brace, so a text is grabbed to its end exactly if none of
its strings has one, and if it fits into the array (`Grabs`).  If all edicts can be read back, their
records come out as they were written (`readNext_records`); and if the right records come out, then
each edict could be read back (`readBack_of_readNext`).
-/

namespace TASQuake.Analysis.SavestateFraming

open Lib EdictRoundTrip InStream Except List

/-! ## Grabbing one text -/

/-- A text is grabbed to its end. -/
structure Grabs (body : Str) : Prop where
  brace : 125 ∉ body
  fits : body.length + 1 < strSize

theorem Grabs.grabEntity {body : Str} (h : Grabs body) (stale : UInt8) (behind : Str) :
    grabEntity stale { bytes := body ++ str "\x7d" ++ behind } =
      .ok (body ++ str "\x7d", { bytes := behind }) := by
  have heq := grabEntity_eq stale h.brace behind
  rw [if_pos h.fits] at heq
  rw [append_assoc]
  exact heq

/-- **If what is grabbed is the text**, the text has no other brace, and it fits. -/
theorem grabs_of_grabEntity {stale : UInt8} {body behind : Str} {stream : InStream}
    (h : grabEntity stale { bytes := body ++ str "\x7d" ++ behind } =
      .ok (body ++ str "\x7d", stream)) :
    Grabs body ∧ stream = { bytes := behind } := by
  rw [append_assoc] at h
  have hshape : body ++ (str "\x7d" ++ behind) = body ++ 125 :: behind := rfl
  rw [hshape] at h
  by_cases hbrace : 125 ∈ body
  · -- the text would be cut at the first brace
    obtain ⟨front, back, rfl, hfront⟩ := eq_append_cons_of_mem hbrace
    have heq := grabEntity_eq stale hfront (back ++ 125 :: behind)
    rw [append_assoc, cons_append, heq] at h
    split at h
    · have hcut := congrArg length (Prod.mk.inj (ok.inj h)).1
      have hone : (str "\x7d").length = 1 := rfl
      simp only [length_append, length_cons, length_nil, hone] at hcut
      omega
    · cases h
  · have heq := grabEntity_eq stale hbrace behind
    rw [heq] at h
    split at h
    · next hfits => exact ⟨⟨hbrace, hfits⟩, ((Prod.mk.inj (ok.inj h)).2).symm⟩
    · cases h

/-! ## What is parsed -/

section Parsed

variable {eng : Engine} {sv : Server} {s : Str}

theorem count_blank_of_nil (h : s.dropWhile (fun c => decide (c ≠ 32)) = []) : s.count 32 = 0 := by
  rw [count_eq_zero]
  intro hmem
  have hne := dropWhile_eq_nil_iff.mp h 32 hmem
  exact absurd hne (by decide)

theorem count_blank_of_cons {c : UInt8} {rest : Str}
    (h : s.dropWhile (fun c => decide (c ≠ 32)) = c :: rest) :
    s.count 32 = rest.count 32 + 1 := by
  have hhead := head_dropWhile_not (fun c : UInt8 => decide (c ≠ 32))
    (l := s) (by rw [h]; exact cons_ne_nil c rest)
  simp only [h, head_cons, decide_eq_false_iff_not, not_not] at hhead
  have hfront : (s.takeWhile fun c => decide (c ≠ 32)).count 32 = 0 := by
    rw [count_eq_zero]
    intro hmem
    exact absurd (mem_takeWhile_imp hmem) (by decide)
  conv_lhs => rw [← takeWhile_append_dropWhile (p := fun c => decide (c ≠ 32)) (l := s)]
  rw [count_append, hfront, h, hhead, count_cons_self, Nat.zero_add]

theorem vectorPieces_isOk_iff : (∃ pieces, vectorPieces s = .ok pieces) ↔ 2 ≤ s.count 32 := by
  unfold vectorPieces
  cases h : s.dropWhile (fun c => decide (c ≠ 32)) with
  | nil =>
    have hcount := count_blank_of_nil h
    exact ⟨fun ⟨_, hok⟩ => absurd hok nofun, fun htwo => by omega⟩
  | cons c second =>
    have hcount := count_blank_of_cons h
    cases h' : second.dropWhile (fun c => decide (c ≠ 32)) with
    | nil =>
      have hcount' := count_blank_of_nil h'
      simp only [h']
      exact ⟨fun ⟨_, hok⟩ => absurd hok nofun, fun htwo => by omega⟩
    | cons c' third =>
      have hcount' := count_blank_of_cons h'
      simp only [h']
      exact ⟨fun _ => by omega, fun _ => ⟨_, rfl⟩⟩

/-- The texts that `_ED_ParseEpair` takes for a variable of some type. -/
def ValueParses (progs : Progs) (type : EType) (s : Str) : Prop :=
  match type with
  | .vector => s.length < 128 ∧ 2 ≤ s.count 32
  | .entity => 0 ≤ atoi s ∧ atoi s < maxEdicts
  | .field => s ∈ progs.fieldDefs.map Def.name
  | .function => s ∈ progs.functions
  | _ => True

theorem parseEpair_isOk_iff (globals : ℕ → Word) (base : Parsed) (key : Def) :
    (∃ base', parseEpair eng sv globals base key s = .ok (some base')) ↔
      ValueParses sv.progs key.type s := by
  unfold parseEpair ValueParses
  cases key.type with
  | vector =>
    dsimp only
    rw [← vectorPieces_isOk_iff]
    split
    · next hlong => exact ⟨fun ⟨_, hok⟩ => absurd hok nofun, fun h => absurd h.1 (not_lt.mpr hlong)⟩
    · next hshort =>
      cases vectorPieces s with
      | error fault => exact ⟨fun ⟨_, hok⟩ => absurd hok nofun, fun h => absurd h.2 nofun⟩
      | ok pieces => exact ⟨fun _ => ⟨not_le.mp hshort, pieces, rfl⟩, fun _ => ⟨_, rfl⟩⟩
  | entity =>
    dsimp only
    unfold edictNum
    split
    · next hbad => exact ⟨fun ⟨_, hok⟩ => absurd hok nofun, fun h => by omega⟩
    · next hgood => exact ⟨fun _ => by omega, fun _ => ⟨_, rfl⟩⟩
  | field =>
    have hfound : (sv.progs.findField s).isSome = true ↔ s ∈ sv.progs.fieldDefs.map Def.name := by
      unfold Progs.findField
      rw [find?_isSome, mem_map]
      simp only [decide_eq_true_eq]
    rw [← hfound]
    cases sv.progs.findField s with
    | none => exact ⟨fun ⟨_, hok⟩ => absurd hok nofun, nofun⟩
    | some d => exact ⟨fun _ => rfl, fun _ => ⟨_, rfl⟩⟩
  | function =>
    have hfound : (sv.progs.findFunction s).isSome = true ↔ s ∈ sv.progs.functions := by
      unfold Progs.findFunction
      rw [findIdx?_isSome, any_eq_true]
      simp only [decide_eq_true_eq, exists_eq_right]
    rw [← hfound]
    cases sv.progs.findFunction s with
    | none => exact ⟨fun ⟨_, hok⟩ => absurd hok nofun, nofun⟩
    | some f => exact ⟨fun _ => rfl, fun _ => ⟨_, rfl⟩⟩
  | _ => exact ⟨fun _ => trivial, fun _ => ⟨_, rfl⟩⟩

/-- The pairs that `SS_ED_ParseEdict` takes: those it skips, and those whose value can be parsed for
the field that the key finds. -/
def FieldParses (progs : Progs) (p : Str × Str) : Prop :=
  (edictKey p.1).head? ≠ some 95 → ∀ d, progs.findField (edictKey p.1) = some d →
    if p.1 = str "angle" then
      p.2.length < 32 ∧ ValueParses progs d.type (str "0 " ++ p.2 ++ str " 0")
    else ValueParses progs d.type p.2

/-- The pairs that `SS_ED_ParseGlobals` takes. -/
def GlobalParses (progs : Progs) (p : Str × Str) : Prop :=
  ∀ d, progs.findGlobal p.1 = some d → ValueParses progs d.type p.2

theorem bind_parseEpair_isOk_iff {σ : Type} {globals : ℕ → Word} {base : Parsed} {key : Def}
    {fault : Fault} {next : Parsed → σ} :
    (∃ state, ((parseEpair eng sv globals base key s).bind fun
      | none => .error fault
      | some base => .ok (next base)) = .ok state) ↔ ValueParses sv.progs key.type s := by
  rw [← parseEpair_isOk_iff globals base key]
  cases parseEpair eng sv globals base key s with
  | error fault => exact ⟨fun ⟨_, hok⟩ => absurd hok nofun, fun ⟨_, hok⟩ => absurd hok nofun⟩
  | ok parsed =>
    cases parsed with
    | none => exact ⟨fun ⟨_, hok⟩ => absurd hok nofun, fun ⟨_, hok⟩ => absurd hok nofun⟩
    | some base => exact ⟨fun _ => ⟨base, rfl⟩, fun _ => ⟨next base, rfl⟩⟩

theorem edictPair_isOk_iff (p : Str × Str) (state : Parsed × Bool) :
    (∃ state', edictPair eng sv p.1 p.2 state = .ok state') ↔ FieldParses sv.progs p := by
  unfold edictPair FieldParses
  by_cases hskip : (edictKey p.1).head? = some 95
  · rw [if_pos hskip]
    exact ⟨fun _ h => absurd hskip h, fun _ => ⟨_, rfl⟩⟩
  · rw [if_neg hskip]
    cases hfound : sv.progs.findField (edictKey p.1) with
    | none => exact ⟨fun _ _ => nofun, fun _ => ⟨_, rfl⟩⟩
    | some d =>
      have hdrop : ∀ {P : Def → Prop},
          ((edictKey p.1).head? ≠ some 95 → ∀ e, some d = some e → P e) ↔ P d :=
        ⟨fun h => h hskip d rfl, fun h _ e he => Option.some.inj he ▸ h⟩
      rw [hdrop]
      unfold edictValue
      by_cases hangle : p.1 = str "angle"
      · rw [if_pos hangle, if_pos hangle]
        by_cases hlen : p.2.length < 32
        · rw [if_pos hlen]
          exact bind_parseEpair_isOk_iff.trans ⟨fun h => ⟨hlen, h⟩, fun h => h.2⟩
        · rw [if_neg hlen]
          exact ⟨fun ⟨_, hok⟩ => absurd hok nofun, fun h => absurd h.1 hlen⟩
      · rw [if_neg hangle, if_neg hangle]
        exact bind_parseEpair_isOk_iff

theorem globalPair_isOk_iff (p : Str × Str) (base : Parsed) :
    (∃ base', globalPair eng sv p.1 p.2 base = .ok base') ↔ GlobalParses sv.progs p := by
  unfold globalPair GlobalParses
  cases hfound : sv.progs.findGlobal p.1 with
  | none => exact ⟨fun _ _ => nofun, fun _ => ⟨_, rfl⟩⟩
  | some d =>
    have hdrop : ∀ {P : Def → Prop}, (∀ e, some d = some e → P e) ↔ P d :=
      ⟨fun h => h d rfl, fun h e he => Option.some.inj he ▸ h⟩
    rw [hdrop]
    exact bind_parseEpair_isOk_iff

end Parsed

/-! ## Numbers -/

theorem readInt_eq (i : Int) (behind : Str) (old : Int) :
    readInt { bytes := writeInt i ++ behind } old =
      (Pod.int32.ofBytes (writeInt i), { bytes := behind }) := by
  have hlen : (writeInt i).length = 4 := Pod.int32.length_toBytes i
  have htake : (writeInt i ++ behind).take 4 = writeInt i := take_left' hlen
  have hdrop : (writeInt i ++ behind).drop 4 = behind := drop_left' hlen
  have hfour : (true && decide (4 ≤ (writeInt i ++ behind).length)) = true := by
    rw [length_append, hlen]
    simp
  unfold readInt
  rw [hfour, if_pos rfl, htake, hdrop]

theorem readInt_writeInt {i : Int} (h : -2 ^ 31 ≤ i ∧ i < 2 ^ 31) (behind : Str) (old : Int) :
    readInt { bytes := writeInt i ++ behind } old = (i, { bytes := behind }) := by
  rw [readInt_eq]
  exact congrArg (·, _) (Pod.int32.ofBytes_toBytes i h)

theorem edictNum_natCast {n : ℕ} (h : (n : Int) < maxEdicts) : edictNum n = .ok n := by
  unfold edictNum
  rw [if_neg (by omega), Int.toNat_natCast]

/-! ## One section -/

/-- What a section is like in a game: the names have neither quotes nor braces, and the values have
no quotes. -/
structure NoQuotes (pairs : List (Str × Str)) : Prop where
  key_quote : ∀ p ∈ pairs, 34 ∉ p.1
  key_brace : ∀ p ∈ pairs, 125 ∉ p.1
  value_quote : ∀ p ∈ pairs, 34 ∉ p.2

/-- **What it takes to read a section back**: no value has a closing brace; the values fit into
`line`, the text into `str` and the keys into the array of the parser; and the parser takes all
pairs. -/
structure ReadBack (keySize : ℕ) (taken : Str × Str → Prop) (pairs : List (Str × Str)) : Prop where
  brace : ∀ p ∈ pairs, 125 ∉ p.2
  line : ∀ p ∈ pairs, p.2.length < 256
  array : (pairs.map fun p => p.1.length + p.2.length + 6).sum + 1 < strSize
  key : ∀ p ∈ pairs, p.1.length < keySize
  parses : ∀ p ∈ pairs, taken p

section Section

variable {σ : Type} {keySize : ℕ} {taken : Str × Str → Prop} {pairs : List (Str × Str)}

theorem NoQuotes.plainPair (h : NoQuotes pairs) (hbrace : 125 ∉ pairsText pairs)
    (hline : ∀ p ∈ pairs, p.2.length < 256) {p : Str × Str} (hp : p ∈ pairs) :
    PlainPair (p.1.length + 1) p where
  key_length := Nat.lt_succ_self _
  value_length := (hline p hp).trans (by decide)
  key_quote := h.key_quote p hp
  value_quote := h.value_quote p hp
  key_brace := fun hhead => h.key_brace p hp (mem_of_mem_head? hhead)
  value_brace := fun hhead =>
    hbrace (brace_mem_pairsText.mpr ⟨p, hp, .inr (mem_of_mem_head? hhead)⟩)

theorem readBack_iff (pair : Str → Str → σ → Except Fault σ) (hsize : keySize ≤ 1024)
    (htaken : ∀ p state, (∃ state', pair p.1 p.2 state = .ok state') ↔ taken p)
    (hpairs : NoQuotes pairs) (hline : ∀ p ∈ pairs, p.2.length < 256) (state : σ) :
    ReadBack keySize taken pairs ↔ Grabs (pairsText pairs) ∧
      ∃ state', parsePairs keySize pair ((pairsText pairs ++ str "\x7d").length + 1)
        (pairsText pairs ++ str "\x7d") state = .ok state' := by
  have hfuel : pairs.length < (pairsText pairs ++ str "\x7d").length + 1 := by
    have hle := length_le_pairsText pairs
    rw [length_append]
    omega
  have hbraces : 125 ∉ pairsText pairs ↔ ∀ p ∈ pairs, 125 ∉ p.2 := by
    rw [brace_mem_pairsText]
    constructor
    · intro h p hp hmem
      exact h ⟨p, hp, .inr hmem⟩
    · rintro h ⟨p, hp, hmem⟩
      exact hmem.elim (hpairs.key_brace p hp) (h p hp)
  constructor
  · intro h
    have hbrace := hbraces.mpr h.brace
    refine ⟨⟨hbrace, ?_⟩, ?_⟩
    · rw [length_pairsText]
      exact h.array
    · rw [parsePairs_isOk_iff hsize htaken (fun p hp => hpairs.plainPair hbrace hline hp) hfuel]
      exact fun p hp => ⟨h.key p hp, h.parses p hp⟩
  · rintro ⟨hgrabs, hparse⟩
    rw [parsePairs_isOk_iff hsize htaken (fun p hp => hpairs.plainPair hgrabs.brace hline hp)
      hfuel] at hparse
    refine ⟨hbraces.mp hgrabs.brace, hline, ?_, fun p hp => (hparse p hp).1,
      fun p hp => (hparse p hp).2⟩
    rw [← length_pairsText]
    exact hgrabs.fits

end Section

/-! ## Reading one edict -/

section Reading

variable {rd : Reader} {sv : Server} {pairs : List (Str × Str)} {records : List (ℕ × Str)}

variable {index : Int} {state : ReadState}

theorem readEdict_eq_ok_iff {state' : ReadState} :
    readEdict rd index state = .ok state' ↔
      ∃ n text stream ent copies, edictNum index = .ok n ∧
        grabEntity rd.stale state.stream = .ok (text, stream) ∧
        ssEdParseEdict rd.toEngine state.sv state.copies text n
          { state.sv.edicts n with v := fun _ => 0 } = .ok (ent, copies) ∧
        state' =
          { sv := (state.sv.setEdict n { ent with free := false }).setEdict n
              (rd.link (state.sv.setEdict n { ent with free := false }) n)
            stream := stream
            copies := copies
            visited := state.visited ++ [(n, text)] } := by
  have hunfold : readEdict rd index state = (edictNum index).bind fun n =>
      (grabEntity rd.stale state.stream).bind fun grabbed =>
        (ssEdParseEdict rd.toEngine state.sv state.copies grabbed.1 n
          { state.sv.edicts n with v := fun _ => 0 }).bind fun parsed =>
            .ok
              { sv := (state.sv.setEdict n { parsed.1 with free := false }).setEdict n
                  (rd.link (state.sv.setEdict n { parsed.1 with free := false }) n)
                stream := grabbed.2
                copies := parsed.2
                visited := state.visited ++ [(n, grabbed.1)] } := rfl
  simp only [hunfold, bind_eq_ok_iff, ok.injEq]
  constructor
  · rintro ⟨n, hnum, grabbed, hgrab, parsed, hparse, rfl⟩
    exact ⟨n, grabbed.1, grabbed.2, parsed.1, parsed.2, hnum, hgrab, hparse, rfl⟩
  · rintro ⟨n, text, stream, ent, copies, hnum, hgrab, hparse, rfl⟩
    exact ⟨n, hnum, (text, stream), hgrab, (ent, copies), hparse, rfl⟩

variable {n : ℕ}

theorem ssEdParseEdict_isOk_iff {eng : Engine} {copies : List Str} {data : Str} {ent : Edict} :
    (∃ r, ssEdParseEdict eng sv copies data n ent = .ok r) ↔
      ∃ state, parsePairs 256 (edictPair eng sv) (data.length + 1) data
        ({ v := if n = 0 then ent.v else fun _ => 0, copies := copies }, false) = .ok state := by
  unfold ssEdParseEdict
  dsimp only
  cases parsePairs 256 (edictPair eng sv) (data.length + 1) data
    ({ v := if n = 0 then ent.v else fun _ => 0, copies := copies }, false) with
  | error fault => exact ⟨fun ⟨_, hok⟩ => absurd hok nofun, fun ⟨_, hok⟩ => absurd hok nofun⟩
  | ok state => exact ⟨fun _ => ⟨state, rfl⟩, fun _ => ⟨_, rfl⟩⟩

/-- A round that takes the record `r` off the stream. -/
structure Takes (rd : Reader) (r : ℕ × Str) (behind : Str) (state state' : ReadState) : Prop where
  ok : readEdict rd r.1 state = .ok state'
  progs : state'.sv.progs = state.sv.progs
  stream : state'.stream = { bytes := behind }
  visited : state'.visited = state.visited ++ [r]

/-- The text of the pairs of an edict. -/
def recordText (pairs : List (Str × Str)) : Str := pairsText pairs ++ str "\x7d"

/-- An edict whose values fit into `line` is read back exactly if its text is grabbed to its end and
parsed. -/
theorem readBack_edict_iff (eng : Engine) (hpairs : NoQuotes pairs)
    (hline : ∀ p ∈ pairs, p.2.length < 256) (copies : List Str) (n : ℕ) (ent : Edict) :
    ReadBack 256 (FieldParses sv.progs) pairs ↔ Grabs (pairsText pairs) ∧
      ∃ r, ssEdParseEdict eng sv copies (recordText pairs) n ent = .ok r := by
  rw [ssEdParseEdict_isOk_iff]
  exact readBack_iff (edictPair eng sv) (by decide) edictPair_isOk_iff hpairs hline _

variable {behind : Str}

/-- **One round, forwards**: an edict that can be read back is taken off the stream. -/
theorem takes_of_readBack (rd : Reader) (hn : (n : Int) < maxEdicts) (hpairs : NoQuotes pairs)
    (h : ReadBack 256 (FieldParses state.sv.progs) pairs)
    (hstream : state.stream = { bytes := recordText pairs ++ behind }) :
    ∃ state', Takes rd (n, recordText pairs) behind state state' := by
  obtain ⟨hgrabs, parsed, hparse⟩ := (readBack_edict_iff rd.toEngine hpairs h.line state.copies n
    { state.sv.edicts n with v := fun _ => 0 }).mp h
  have hgrab : grabEntity rd.stale state.stream = .ok (recordText pairs, { bytes := behind }) := by
    rw [hstream]
    exact hgrabs.grabEntity rd.stale behind
  exact ⟨_, readEdict_eq_ok_iff.mpr ⟨n, _, _, parsed.1, parsed.2, edictNum_natCast hn, hgrab,
    hparse, rfl⟩, rfl, rfl, rfl⟩

/-- **One round, backwards**: an edict that is taken with its text could be read back. -/
theorem readBack_of_visited (hn : (n : Int) < maxEdicts) (hpairs : NoQuotes pairs)
    (hline : ∀ p ∈ pairs, p.2.length < 256) {state' : ReadState}
    (hstream : state.stream = { bytes := recordText pairs ++ behind })
    (hok : readEdict rd n state = .ok state') {more : List (ℕ × Str)}
    (hvisited : state'.visited ++ more = state.visited ++ (n, recordText pairs) :: records) :
    ReadBack 256 (FieldParses state.sv.progs) pairs ∧
      Takes rd (n, recordText pairs) behind state state' ∧ more = records := by
  obtain ⟨m, text, stream, ent, copies, hnum, hgrab, hparse, rfl⟩ := readEdict_eq_ok_iff.mp hok
  rw [edictNum_natCast hn] at hnum
  obtain rfl := ok.inj hnum
  rw [append_assoc, append_cancel_left_eq, singleton_append, cons.injEq, Prod.mk.injEq] at hvisited
  obtain ⟨⟨-, rfl⟩, rfl⟩ := hvisited
  rw [hstream] at hgrab
  obtain ⟨hgrabs, rfl⟩ := grabs_of_grabEntity hgrab
  exact ⟨(readBack_edict_iff rd.toEngine hpairs hline _ _ _).mpr ⟨hgrabs, _, hparse⟩,
    ⟨hok, rfl, rfl, rfl⟩, rfl⟩

/-! ## Reading the records -/

/-- Read the next number and go on with the loop of `ReadEnts`. -/
def readNext (rd : Reader) (fuel : ℕ) (index : Int) (state : ReadState) :
    Option (Except Fault ReadState) :=
  readLoop rd fuel (state.stream.readInt index).1
    { state with stream := (state.stream.readInt index).2 }

theorem readLoop_succ (hindex : index ≠ -1) (fuel : ℕ) (state : ReadState) :
    readLoop rd (fuel + 1) index state =
      match readEdict rd index state with
      | .error fault => some (.error fault)
      | .ok state => readNext rd fuel index state := by
  conv_lhs => unfold readLoop
  rw [if_neg hindex]
  rfl

theorem readNext_writeInt {i : Int} (hi : -2 ^ 31 ≤ i ∧ i < 2 ^ 31)
    (hstream : state.stream = { bytes := writeInt i ++ behind }) (fuel : ℕ) (index : Int) :
    readNext rd fuel index state =
      readLoop rd fuel i { state with stream := { bytes := behind } } := by
  unfold readNext
  rw [hstream, readInt_writeInt hi]

theorem visited_readLoop {fuel : ℕ} {final : ReadState}
    (h : readLoop rd fuel index state = some (.ok final)) :
    ∃ more, final.visited = state.visited ++ more := by
  induction fuel generalizing index state with
  | zero => cases h
  | succ fuel ih =>
    by_cases hindex : index = -1
    · unfold readLoop at h
      rw [if_pos hindex] at h
      cases h
      exact ⟨[], (append_nil _).symm⟩
    · rw [readLoop_succ hindex] at h
      cases hedict : readEdict rd index state with
      | error fault =>
        rw [hedict] at h
        cases h
      | ok state₁ =>
        rw [hedict] at h
        obtain ⟨more, hmore⟩ := ih h
        obtain ⟨n, text, stream, ent, copies, -, -, -, rfl⟩ := readEdict_eq_ok_iff.mp hedict
        exact ⟨(n, text) :: more, hmore.trans (append_assoc _ _ _)⟩

end Reading

/-! ## What is written -/

/-- The pairs of an edict. -/
def edictPairs (sv : Server) (i : ℕ) : List (Str × Str) :=
  fieldPairs sv (sv.edicts i).v (sv.progs.fieldDefs.drop 1)

/-- The number and the text of some edicts. -/
def records (sv : Server) (indices : List ℕ) : List (ℕ × Str) :=
  indices.map fun i => (i, recordText (edictPairs sv i))

/-- The bytes of the edicts: of each its number and its text. -/
def recordsBytes (records : List (ℕ × Str)) : Str :=
  records.flatMap fun r => writeInt r.1 ++ r.2

theorem recordsBytes_cons (sv : Server) (i : ℕ) (indices : List ℕ) :
    recordsBytes (records sv (i :: indices)) =
      writeInt i ++ (recordText (edictPairs sv i) ++ recordsBytes (records sv indices)) := by
  show (writeInt i ++ recordText (edictPairs sv i)) ++ recordsBytes (records sv indices) = _
  rw [append_assoc]

/-- The edicts in use. -/
def inUse (sv : Server) : List ℕ :=
  (range sv.numEdicts.toNat).filter fun i => !(sv.edicts i).free

/-- A server in a game: names are identifiers, and entities, functions and fields are there. -/
structure ValidServer (sv : Server) : Prop where
  names : PlainNames sv.progs
  globalNames : ∀ d ∈ sv.progs.globalDefs, 34 ∉ d.name ∧ 125 ∉ d.name
  size_pos : 0 < sv.edictSize
  num_le : sv.numEdicts ≤ maxEdicts
  fields : ∀ i ∈ inUse sv, ∀ d ∈ sv.progs.fieldDefs.drop 1,
    isZero d.type (wordsAt (sv.edicts i).v d.ofs) = false →
      ValidValue sv d.type (wordsAt (sv.edicts i).v d.ofs)
  globals : ∀ d ∈ sv.progs.globalDefs, d.isSaved = true →
    ValidValue sv d.type (wordsAt sv.globals d.ofs)

/-- No string of an edict and no saved string has a double quote. -/
structure NoQuoteStrings (sv : Server) : Prop where
  fields : ∀ i ∈ inUse sv, ∀ d ∈ sv.progs.fieldDefs, d.type = .string →
    34 ∉ sv.strings ((sv.edicts i).v d.ofs)
  globals : ∀ d ∈ sv.progs.globalDefs, d.isSaved = true → d.type = .string →
    34 ∉ sv.strings (sv.globals d.ofs)

section Written

variable {sv : Server}

variable {i : ℕ}

section

variable (h : ValidServer sv)
include h

theorem ValidServer.lt_maxEdicts (hi : i ∈ inUse sv) :
    (i : Int) < maxEdicts := by
  have hlt := mem_range.mp (mem_of_mem_filter hi)
  have hle := h.num_le
  omega

theorem quote_notMem_valueText {type : EType} {val : ℕ → Word}
    (hvalid : ValidValue sv type val) (hstring : type = .string → 34 ∉ sv.strings (val 0)) :
    34 ∉ valueText sv type val := by
  by_cases htype : type = .string
  · subst htype
    exact hstring rfl
  · exact (plainText_valueText h.names h.size_pos hvalid htype).quote

theorem ValidServer.noQuotes_edict (hq : NoQuoteStrings sv) (hi : i ∈ inUse sv) :
    NoQuotes (edictPairs sv i) := by
  have hpair : ∀ p ∈ edictPairs sv i, PlainText p.1 ∧ 34 ∉ p.2 := by
    intro p hp
    obtain ⟨d, hd, rfl⟩ := mem_map.mp hp
    obtain ⟨hd, hzero⟩ := mem_filter.mp hd
    rw [Bool.not_eq_true'] at hzero
    have hmem := mem_of_mem_drop hd
    exact ⟨h.names.fields d hmem,
      quote_notMem_valueText h (h.fields i hi d hd hzero) (hq.fields i hi d hmem)⟩
  exact ⟨fun p hp => (hpair p hp).1.quote, fun p hp => (hpair p hp).1.brace,
    fun p hp => (hpair p hp).2⟩

theorem ValidServer.noQuotes_globals (hq : NoQuoteStrings sv) :
    NoQuotes (globalPairs sv sv.progs.globalDefs) := by
  have hpair : ∀ p ∈ globalPairs sv sv.progs.globalDefs, (34 ∉ p.1 ∧ 125 ∉ p.1) ∧ 34 ∉ p.2 := by
    intro p hp
    obtain ⟨d, hd, rfl⟩ := mem_map.mp hp
    obtain ⟨hmem, hsaved⟩ := mem_filter.mp hd
    exact ⟨h.globalNames d hmem,
      quote_notMem_valueText h (h.globals d hmem hsaved) (hq.globals d hmem hsaved)⟩
  exact ⟨fun p hp => (hpair p hp).1.1, fun p hp => (hpair p hp).1.2, fun p hp => (hpair p hp).2⟩

theorem ValidServer.edWrite_eq_ok_iff (hi : i ∈ inUse sv) {text : Str} :
    edWrite sv (sv.edicts i).v = .ok text ↔
      (∀ p ∈ edictPairs sv i, p.2.length < 256) ∧ text = recordText (edictPairs sv i) :=
  TASQuake.edWrite_eq_ok_iff h.size_pos (h.fields i hi)

/-- **What the loop of `WriteEnts` writes**: the records, if all values fit into `line`. -/
theorem ValidServer.writeEdicts_eq_ok_iff {indices : List ℕ}
    (hindices : ∀ i ∈ indices, (i : Int) < maxEdicts ∧ ((sv.edicts i).free = false → i ∈ inUse sv))
    {bytes : Str} :
    writeEdicts sv indices = .ok bytes ↔
      (∀ i ∈ indices.filter fun i => !(sv.edicts i).free, ∀ p ∈ edictPairs sv i, p.2.length < 256) ∧
        bytes = recordsBytes (records sv (indices.filter fun i => !(sv.edicts i).free)) := by
  induction indices generalizing bytes with
  | nil =>
    show ok [] = ok bytes ↔ _
    rw [ok.injEq]
    exact ⟨fun h => ⟨fun i hi => absurd hi not_mem_nil, h.symm⟩, fun h => h.2.symm⟩
  | cons i indices ih =>
    obtain ⟨hlt, huse⟩ := hindices i mem_cons_self
    have hunfold : writeEdicts sv (i :: indices) =
        if (sv.edicts i).free then writeEdicts sv indices
        else (edWrite sv (sv.edicts i).v).bind fun text =>
          (writeEdicts sv indices).bind fun rest => .ok (writeInt i ++ (text ++ rest)) := by
      show (edictNum i).bind _ = _
      rw [edictNum_natCast hlt]
      rfl
    have hrest : ∀ rest, writeEdicts sv indices = .ok rest ↔ _ :=
      fun _ => ih fun j hj => hindices j (mem_cons_of_mem _ hj)
    rw [hunfold]
    cases hfree : (sv.edicts i).free with
    | true =>
      rw [if_pos rfl, filter_cons_of_neg (by simp [hfree])]
      exact hrest bytes
    | false =>
      rw [if_neg Bool.false_ne_true, filter_cons_of_pos (by simp [hfree])]
      simp only [bind_eq_ok_iff, h.edWrite_eq_ok_iff (huse hfree), hrest, ok.injEq,
        forall_mem_cons]
      constructor
      · rintro ⟨_, ⟨hline, rfl⟩, _, ⟨hlines, rfl⟩, rfl⟩
        exact ⟨⟨hline, hlines⟩, (recordsBytes_cons sv i _).symm⟩
      · rintro ⟨⟨hline, hlines⟩, rfl⟩
        exact ⟨_, ⟨hline, rfl⟩, _, ⟨hlines, rfl⟩, (recordsBytes_cons sv i _).symm⟩

/-- **What `WriteEnts` writes.** -/
theorem ValidServer.writeEnts_eq_ok_iff {bytes : Str} :
    writeEnts sv = .ok bytes ↔
      (∀ i ∈ inUse sv, ∀ p ∈ edictPairs sv i, p.2.length < 256) ∧
        bytes =
          writeInt sv.numEdicts ++ (recordsBytes (records sv (inUse sv)) ++ writeInt (-1)) := by
  have hunfold : writeEnts sv = (writeEdicts sv (range sv.numEdicts.toNat)).bind fun edicts =>
      .ok (writeInt sv.numEdicts ++ (edicts ++ writeInt (-1))) := rfl
  have hindices : ∀ i ∈ range sv.numEdicts.toNat,
      (i : Int) < maxEdicts ∧ ((sv.edicts i).free = false → i ∈ inUse sv) := by
    intro i hi
    have hle := h.num_le
    have hlt := mem_range.mp hi
    exact ⟨by omega, fun hfree => mem_filter.mpr ⟨hi, by rw [hfree]; rfl⟩⟩
  simp only [hunfold, bind_eq_ok_iff, h.writeEdicts_eq_ok_iff hindices, ok.injEq]
  constructor
  · rintro ⟨_, ⟨hlines, rfl⟩, rfl⟩
    exact ⟨hlines, rfl⟩
  · rintro ⟨hlines, rfl⟩
    exact ⟨_, ⟨hlines, rfl⟩, rfl⟩

end

end Written

/-! ## Reading all edicts -/

section Loop

variable {rd : Reader} {sv : Server}

/-- The loop, from where the next number is read: if every edict can be read back, it takes all
records and stops behind the last number. -/
theorem readNext_records (rd : Reader) (h : ValidServer sv) (hq : NoQuoteStrings sv)
    {indices : List ℕ}
    (hindices : ∀ i ∈ indices, i ∈ inUse sv ∧ ReadBack 256 (FieldParses sv.progs) (edictPairs sv i))
    {state : ReadState} (hprogs : state.sv.progs = sv.progs) {behind : Str}
    (hstream : state.stream =
      { bytes := recordsBytes (records sv indices) ++ (writeInt (-1) ++ behind) }) (index : Int) :
    ∃ fuel final, readNext rd fuel index state = some (.ok final) ∧
      final.stream = { bytes := behind } ∧ final.visited = state.visited ++ records sv indices := by
  induction indices generalizing state index with
  | nil =>
    refine ⟨1, { state with stream := { bytes := behind } }, ?_, rfl, (append_nil _).symm⟩
    rw [readNext_writeInt (by decide) hstream]
    rfl
  | cons i indices ih =>
    obtain ⟨hi, hback⟩ := hindices i mem_cons_self
    have hlt := h.lt_maxEdicts hi
    have hint : -2 ^ 31 ≤ (i : Int) ∧ (i : Int) < 2 ^ 31 := by
      unfold maxEdicts at hlt
      omega
    rw [recordsBytes_cons, append_assoc, append_assoc] at hstream
    -- the state behind the number
    set state₀ : ReadState := { state with stream := { bytes := recordText (edictPairs sv i) ++
      (recordsBytes (records sv indices) ++ (writeInt (-1) ++ behind)) } }
    have hback₀ : ReadBack 256 (FieldParses state₀.sv.progs) (edictPairs sv i) := hprogs ▸ hback
    obtain ⟨state₁, htakes⟩ := takes_of_readBack rd hlt (h.noQuotes_edict hq hi) hback₀ rfl
    obtain ⟨fuel, final, hread, hfinal, hvisited⟩ :=
      ih (fun j hj => hindices j (mem_cons_of_mem _ hj)) (htakes.progs.trans hprogs)
        htakes.stream i
    refine ⟨fuel + 1, final, ?_, hfinal, ?_⟩
    · rw [readNext_writeInt hint hstream, readLoop_succ (by omega), htakes.ok]
      exact hread
    · rw [hvisited, htakes.visited, append_assoc]
      rfl

theorem readBack_of_readNext (h : ValidServer sv) (hq : NoQuoteStrings sv) {indices : List ℕ}
    (hindices : ∀ i ∈ indices, i ∈ inUse sv ∧ ∀ p ∈ edictPairs sv i, p.2.length < 256)
    {state final : ReadState} (hprogs : state.sv.progs = sv.progs) {behind : Str}
    (hstream : state.stream =
      { bytes := recordsBytes (records sv indices) ++ (writeInt (-1) ++ behind) })
    {index : Int} {fuel : ℕ} (hread : readNext rd fuel index state = some (.ok final))
    (hvisited : final.visited = state.visited ++ records sv indices) :
    ∀ i ∈ indices, ReadBack 256 (FieldParses sv.progs) (edictPairs sv i) := by
  induction indices generalizing state index fuel with
  | nil => exact fun i hi => absurd hi not_mem_nil
  | cons i indices ih =>
    obtain ⟨hi, hline⟩ := hindices i mem_cons_self
    have hlt := h.lt_maxEdicts hi
    have hint : -2 ^ 31 ≤ (i : Int) ∧ (i : Int) < 2 ^ 31 := by
      unfold maxEdicts at hlt
      omega
    rw [recordsBytes_cons, append_assoc, append_assoc] at hstream
    rw [readNext_writeInt hint hstream] at hread
    cases fuel with
    | zero => cases hread
    | succ fuel =>
      rw [readLoop_succ (by omega)] at hread
      cases hedict : readEdict rd i { state with
          stream := { bytes := recordText (edictPairs sv i) ++
            (recordsBytes (records sv indices) ++ (writeInt (-1) ++ behind)) } } with
      | error fault =>
        rw [hedict] at hread
        cases hread
      | ok state₁ =>
        rw [hedict] at hread
        obtain ⟨more, hmore⟩ := visited_readLoop hread
        rw [hmore] at hvisited
        obtain ⟨hback, htakes, rfl⟩ :=
          readBack_of_visited hlt (h.noQuotes_edict hq hi) hline rfl hedict hvisited
        rw [forall_mem_cons]
        refine ⟨hprogs ▸ hback, ?_⟩
        exact ih (fun j hj => hindices j (mem_cons_of_mem _ hj)) (htakes.progs.trans hprogs)
          htakes.stream hread hmore

end Loop

/-! ## The result -/

/-- **The globals and the edicts are read as they were written**, whatever is behind them: the
globals get their text, the edicts in use are visited in their order, each gets its text, and the
stream stops behind the last byte. -/
def SelfDelimiting (rd : Reader) (sv sv' : Server) : Prop :=
  ∃ globals edicts, edWriteGlobals sv = .ok globals ∧ writeEnts sv = .ok edicts ∧
    ∀ behind, ∃ fuel final,
      readServer rd fuel sv' { bytes := globals ++ (edicts ++ behind) } =
        some (.ok (globals, final)) ∧
      final.stream = { bytes := behind } ∧
      final.visited.map Prod.fst = inUse sv ∧
      ∀ r ∈ final.visited, edWrite sv (sv.edicts r.1).v = .ok r.2

/-- What it takes: the globals and all edicts in use can be read back. -/
structure Framed (sv : Server) : Prop where
  globals : ReadBack 64 (GlobalParses sv.progs) (globalPairs sv sv.progs.globalDefs)
  edicts : ∀ i ∈ inUse sv, ReadBack 256 (FieldParses sv.progs) (edictPairs sv i)

section Result

variable {rd : Reader} {sv sv' : Server}

/-- The state from which `ReadEnts` reads the edicts, behind the globals. -/
def afterGlobals (sv' : Server) (base : Parsed) (stream : InStream) : ReadState where
  sv := { sv' with globals := base.v }
  stream := stream
  copies := base.copies

theorem readServer_eq_ok_iff {fuel : ℕ} {stream : InStream} {text : Str} {final : ReadState} :
    readServer rd fuel sv' stream = some (.ok (text, final)) ↔
      ∃ behind base, grabEntity rd.stale stream = .ok (text, behind) ∧
        ssEdParseGlobals rd.toEngine sv' [] text = .ok base ∧
        readEnts rd fuel (afterGlobals sv' base behind) = some (.ok final) := by
  unfold readServer
  cases grabEntity rd.stale stream with
  | error fault => exact ⟨nofun, fun ⟨_, _, h, _⟩ => absurd h nofun⟩
  | ok grabbed =>
    cases hparse : ssEdParseGlobals rd.toEngine sv' [] grabbed.1 with
    | error fault =>
      dsimp only
      rw [hparse]
      refine ⟨nofun, fun ⟨_, base, hgrab, hbase, _⟩ => ?_⟩
      obtain rfl := ok.inj hgrab
      rw [hparse] at hbase
      cases hbase
    | ok base =>
      dsimp only
      rw [hparse]
      show (readEnts rd fuel (afterGlobals sv' base grabbed.2)).map _ = _ ↔ _
      constructor
      · intro h
        obtain ⟨result, hread, hresult⟩ := Option.map_eq_some_iff.mp h
        cases result with
        | error fault => cases hresult
        | ok state =>
          obtain ⟨rfl, rfl⟩ := Prod.mk.inj (ok.inj hresult)
          exact ⟨grabbed.2, base, rfl, hparse, hread⟩
      · rintro ⟨behind, base', hgrab, hbase, hread⟩
        obtain rfl := ok.inj hgrab
        rw [hparse] at hbase
        obtain rfl := ok.inj hbase
        rw [hread]
        rfl

/-- The state from which `ReadEnts` reads the numbers of the edicts. -/
def afterCount (state : ReadState) (numEdicts : Int) (stream : InStream) : ReadState :=
  { state with
    sv :=
      { state.sv with
        edicts := fun n : ℕ =>
          if (n : Int) < maxEdicts then { state.sv.edicts n with free := true }
          else state.sv.edicts n
        numEdicts := numEdicts }
    stream := stream }

theorem readEnts_eq (i : Int) {state : ReadState} {behind : Str}
    (hstream : state.stream = { bytes := writeInt i ++ behind }) (fuel : ℕ) :
    readEnts rd fuel state = readNext rd fuel rd.staleIndex
      (afterCount state (Pod.int32.ofBytes (writeInt i)) { bytes := behind }) := by
  unfold readEnts
  rw [hstream, readInt_eq]
  rfl

theorem visited_eq (h : ValidServer sv) {indices : List ℕ} (hindices : ∀ i ∈ indices, i ∈ inUse sv)
    {visited : List (ℕ × Str)} (hfst : visited.map Prod.fst = indices)
    (htexts : ∀ r ∈ visited, edWrite sv (sv.edicts r.1).v = .ok r.2) :
    visited = records sv indices := by
  subst hfst
  unfold records
  rw [map_map]
  conv_lhs => rw [← map_id visited]
  apply map_congr_left
  intro r hr
  have hin := hindices r.1 (mem_map_of_mem hr)
  exact Prod.ext rfl ((h.edWrite_eq_ok_iff hin).mp (htexts r hr)).2

theorem readBack_globals_iff (eng : Engine) (h : ValidServer sv) (hq : NoQuoteStrings sv)
    (hprogs : sv'.progs = sv.progs)
    (hline : ∀ p ∈ globalPairs sv sv.progs.globalDefs, p.2.length < 256) :
    ReadBack 64 (GlobalParses sv.progs) (globalPairs sv sv.progs.globalDefs) ↔
      Grabs (pairsText (globalPairs sv sv.progs.globalDefs)) ∧
      ∃ base, ssEdParseGlobals eng sv' []
        (recordText (globalPairs sv sv.progs.globalDefs)) = .ok base := by
  have htaken : ∀ (p : Str × Str) (base : Parsed),
      (∃ base', globalPair eng sv' p.1 p.2 base = .ok base') ↔ GlobalParses sv.progs p := by
    rw [← hprogs]
    exact globalPair_isOk_iff
  exact readBack_iff (globalPair eng sv') (by decide) htaken (h.noQuotes_globals hq) hline _

theorem ValidServer.edWriteGlobals_eq_ok_iff (h : ValidServer sv) {text : Str} :
    edWriteGlobals sv = .ok text ↔
      (∀ p ∈ globalPairs sv sv.progs.globalDefs, p.2.length < 256) ∧
        text = recordText (globalPairs sv sv.progs.globalDefs) :=
  TASQuake.edWriteGlobals_eq_ok_iff h.size_pos h.globals

theorem selfDelimiting_of_framed (rd : Reader) (h : ValidServer sv) (hq : NoQuoteStrings sv)
    (hprogs : sv'.progs = sv.progs) (hf : Framed sv) : SelfDelimiting rd sv sv' := by
  have hlines : ∀ i ∈ inUse sv, ∀ p ∈ edictPairs sv i, p.2.length < 256 :=
    fun i hi => (hf.edicts i hi).line
  obtain ⟨hgrabs, base, hbase⟩ :=
    (readBack_globals_iff rd.toEngine h hq hprogs hf.globals.line).mp hf.globals
  refine ⟨_, _, h.edWriteGlobals_eq_ok_iff.mpr ⟨hf.globals.line, rfl⟩,
    h.writeEnts_eq_ok_iff.mpr ⟨hlines, rfl⟩, fun behind => ?_⟩
  simp only [append_assoc]
  -- what is left behind the globals and behind the number of edicts
  let rest := recordsBytes (records sv (inUse sv)) ++ (writeInt (-1) ++ behind)
  let state := afterGlobals sv' base { bytes := writeInt sv.numEdicts ++ rest }
  have hprogs₀ : (afterCount state (Pod.int32.ofBytes (writeInt sv.numEdicts))
      { bytes := rest }).sv.progs = sv.progs := hprogs
  obtain ⟨fuel, final, hread, hstream, hvisited⟩ := readNext_records rd h hq
    (fun i hi => ⟨hi, hf.edicts i hi⟩) hprogs₀ rfl rd.staleIndex
  have hrecords : final.visited = records sv (inUse sv) := hvisited
  refine ⟨fuel, final, readServer_eq_ok_iff.mpr ⟨_, base, hgrabs.grabEntity rd.stale _, hbase, ?_⟩,
    hstream, ?_, fun r hr => ?_⟩
  · rw [readEnts_eq sv.numEdicts rfl]
    exact hread
  · rw [hrecords]
    unfold records
    rw [map_map]
    exact map_id _
  · rw [hrecords] at hr
    obtain ⟨i, hi, rfl⟩ := mem_map.mp hr
    exact (h.edWrite_eq_ok_iff hi).mpr ⟨hlines i hi, rfl⟩

theorem framed_of_selfDelimiting (h : ValidServer sv) (hq : NoQuoteStrings sv)
    (hprogs : sv'.progs = sv.progs) (hs : SelfDelimiting rd sv sv') : Framed sv := by
  obtain ⟨globals, edicts, hglobals, hedicts, hread⟩ := hs
  obtain ⟨hline, rfl⟩ := h.edWriteGlobals_eq_ok_iff.mp hglobals
  obtain ⟨hlines, rfl⟩ := h.writeEnts_eq_ok_iff.mp hedicts
  obtain ⟨fuel, final, hok, -, hfst, htexts⟩ := hread []
  obtain ⟨behind, base, hgrab, hbase, hents⟩ := readServer_eq_ok_iff.mp hok
  have hvisited := visited_eq h (fun i hi => hi) hfst htexts
  unfold recordText at hgrab
  obtain ⟨hgrabs, rfl⟩ := grabs_of_grabEntity hgrab
  refine ⟨(readBack_globals_iff rd.toEngine h hq hprogs hline).mpr ⟨hgrabs, base, hbase⟩, ?_⟩
  have hstream : (afterGlobals sv' base { bytes := writeInt sv.numEdicts ++
      (recordsBytes (records sv (inUse sv)) ++ writeInt (-1)) ++ [] }).stream =
      { bytes := writeInt sv.numEdicts ++
        (recordsBytes (records sv (inUse sv)) ++ (writeInt (-1) ++ [])) } := by
    show InStream.mk _ _ = _
    rw [append_assoc, append_assoc]
  rw [readEnts_eq sv.numEdicts hstream] at hents
  exact readBack_of_readNext h hq (fun i hi => ⟨hi, hlines i hi⟩) hprogs rfl hents hvisited

end Result

/-- **The globals and the edicts of a savestate delimit themselves** exactly if no string has a
closing brace, everything fits into the arrays, and the parsers take all pairs. -/
theorem self_delimiting_iff (rd : Reader) {sv sv' : Server} (h : ValidServer sv)
    (hq : NoQuoteStrings sv) (hprogs : sv'.progs = sv.progs) :
    SelfDelimiting rd sv sv' ↔ Framed sv :=
  ⟨framed_of_selfDelimiting h hq hprogs, selfDelimiting_of_framed rd h hq hprogs⟩

theorem fieldParses_edictPairs {sv : Server} (h : ValidServer sv) (hnames : FieldNames sv.progs)
    {i : ℕ} (hi : i ∈ inUse sv) : ∀ p ∈ edictPairs sv i, FieldParses sv.progs p := by
  intro p hp
  obtain ⟨d, hd, rfl⟩ := mem_map.mp hp
  obtain ⟨hd, hzero⟩ := mem_filter.mp hd
  rw [Bool.not_eq_true'] at hzero
  obtain ⟨base, hpair, -⟩ := edictPair_written exampleEngine ⟨rfl, hnames, h.size_pos, h.num_le⟩
    (mem_of_mem_drop hd) (h.fields i hi d hd hzero) { v := fun _ => 0 }
  exact (edictPair_isOk_iff _ _).mp ⟨_, hpair false⟩

/-- In a game whose saved globals have names of their own, the parser takes all pairs of the
globals. -/
theorem globalParses_globalPairs {sv : Server} (h : ValidServer sv)
    (hnames : (sv.progs.globalDefs.map Def.name).Nodup) :
    ∀ p ∈ globalPairs sv sv.progs.globalDefs, GlobalParses sv.progs p := by
  intro p hp
  obtain ⟨d, hd, rfl⟩ := mem_map.mp hp
  obtain ⟨hmem, hsaved⟩ := mem_filter.mp hd
  have hfound := entryAt_of_mem hnames hmem
  intro e he
  obtain rfl := Option.some.inj (hfound.symm.trans he)
  obtain ⟨base, hparse, -⟩ := parseEpair_written exampleEngine (rfl : sv.progs = sv.progs)
    h.size_pos h.num_le (h.globals d hmem hsaved) sv.globals { v := fun _ => 0 }
  exact (parseEpair_isOk_iff _ _ _).mp ⟨base, hparse⟩

/-- A game with two edicts, a saved float and a saved string, in which every string is `name`. -/
def exampleGame (name : Str) : Server :=
  { exampleServer with
    progs :=
      { exampleServer.progs with
        globalDefs :=
          [{ type := .float, ofs := 1, name := str "time", saveGlobal := true },
            { type := .string, ofs := 2, name := str "nextmap", saveGlobal := true }] }
    strings := fun _ => name
    edicts := fun _ => { v := exampleVariables } }

/-- A reader that finds zeros, and for which linking changes nothing. -/
def exampleReader : Reader :=
  { exampleEngine with
    stale := 0
    staleIndex := 0
    link := fun sv n => sv.edicts n }

variable (name : Str)

theorem fieldNames_exampleGame : FieldNames (exampleGame name).progs :=
  have h := fieldNames_example
  ⟨⟨h.fields, h.functions⟩, h.unique, h.angle, h.light, h.underscore, h.blank⟩

theorem validServer_exampleGame : ValidServer (exampleGame name) where
  names := (fieldNames_exampleGame name).toPlainNames
  globalNames := by
    show ∀ d ∈ (exampleGame []).progs.globalDefs, 34 ∉ d.name ∧ 125 ∉ d.name
    decide +kernel
  size_pos := by
    show 0 < 600
    decide
  num_le := by
    show (2 : Int) ≤ maxEdicts
    decide
  fields := fun i _ d hd _ => validValue_example (mem_of_mem_drop hd)
  globals := by
    intro d hd _
    have htype : ∀ d ∈ (exampleGame []).progs.globalDefs, d.type = .float ∨ d.type = .string := by
      decide +kernel
    rcases htype d hd with htype | htype
    · rw [htype]
      trivial
    · rw [htype]
      trivial

theorem noQuoteStrings_exampleGame {name : Str} (h : 34 ∉ name) :
    NoQuoteStrings (exampleGame name) :=
  ⟨fun _ _ _ _ _ => h, fun _ _ _ _ => h⟩

theorem progs_exampleGame (name' : Str) :
    (exampleGame name').progs = (exampleGame name).progs := rfl

/-- A name with an opening brace. -/
theorem self_delimiting_opening_brace :
    SelfDelimiting exampleReader (exampleGame (str "a\x7bb")) (exampleGame []) := by
  have hvalid := validServer_exampleGame (str "a\x7bb")
  refine (self_delimiting_iff exampleReader hvalid (noQuoteStrings_exampleGame (by decide))
    (progs_exampleGame _ _)).mpr ⟨?_, fun i hi => ?_⟩
  · exact ⟨by decide +kernel, by decide +kernel, by decide +kernel, by decide +kernel,
      globalParses_globalPairs hvalid (by decide +kernel)⟩
  · -- both edicts have the same variables
    have hparses := fieldParses_edictPairs hvalid (fieldNames_exampleGame _) hi
    have hsame : edictPairs (exampleGame (str "a\x7bb")) i =
        edictPairs (exampleGame (str "a\x7bb")) 0 := rfl
    rw [hsame] at hparses ⊢
    exact ⟨by decide +kernel, by decide +kernel, by decide +kernel, by decide +kernel, hparses⟩

/-- A name with a closing brace: the text of the globals is cut inside the name. -/
theorem closing_brace_not_self_delimiting :
    ValidServer (exampleGame (str "a\x7db")) ∧ NoQuoteStrings (exampleGame (str "a\x7db")) ∧
    ¬ SelfDelimiting exampleReader (exampleGame (str "a\x7db")) (exampleGame []) := by
  have hvalid := validServer_exampleGame (str "a\x7db")
  have hquotes : NoQuoteStrings (exampleGame (str "a\x7db")) :=
    noQuoteStrings_exampleGame (by decide)
  refine ⟨hvalid, hquotes, fun hs => ?_⟩
  have hbrace := (framed_of_selfDelimiting hvalid hquotes (progs_exampleGame _ _) hs).globals.brace
  exact absurd hbrace (by decide +kernel)

end TASQuake.Analysis.SavestateFraming
