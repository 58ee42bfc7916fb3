import TASQuake.Analysis.ScriptImage

/-!
# A script written to memory is read back

The argument has three parts that meet at the list of the lines written (`lines`): the texts are
these lines, each with an end (`text_eq`); parsing the lines gives the blocks back (`foldlM_lines`);
reading the bytes gives the lines back (`loop_of_pieces`).  `RoundTrips` is what is asked of the
conversion of floats.
-/

namespace TASQuake

open Lib Io FrameBlock BufferReader BufferWriter Loader OrderedMap List

/-! ## Bytes -/

/-- The bytes of the text of a number. -/
def isFloatByte (c : UInt8) : Bool :=
  isDigitByte c || c == 43 || c == 45 || c == 46 || c == 101

theorem plainByte_of_isFloatByte {c : UInt8} (h : isFloatByte c = true) : PlainByte c := by
  unfold isFloatByte at h
  simp only [Bool.or_eq_true, beq_iff_eq] at h
  rcases h with (((h | rfl) | rfl) | rfl) | rfl
  · exact plainByte_of_isDigitByte h
  all_goals decide

variable {line : Str}

theorem cleanLine_of_plain (h : ∀ c ∈ line, PlainByte c) : CleanLine line :=
  ⟨fun c hc => (h c hc).2.1, noDouble_of_notMem fun hc => (h 47 hc).2.2 rfl⟩

theorem trimmed_of_plain (h : ∀ c ∈ line, PlainByte c) :
    Trimmed isSpaceByte line := trimmed_of_forall fun c hc => (h c hc).1

/-! ## Lines that are read back -/

theorem parseNewline_of_trimmed (hclean : CleanLine line) (htrim : Trimmed isSpaceByte line) :
    parseNewline line = line := by
  unfold parseNewline
  rw [cutAt_eq_self hclean.noComment, trim_eq_self htrim]

theorem parseNewline_tab (hne : line ≠ []) (hcomment : NoDouble 47 line)
    (htrim : Trimmed isSpaceByte line) : parseNewline (9 :: line) = line := by
  have htab : NoDouble 47 (9 :: line) := NoDouble.join (l := []) (by decide) List.IsChain.nil hcomment
  unfold parseNewline
  rw [cutAt_eq_self htab, trim_cons_of_pos (by decide) hne htrim]

/-- A line inside a block. -/
structure ContentLine (line : Str) : Prop where
  ne_nil : line ≠ []
  clean : CleanLine line
  trimmed : Trimmed isSpaceByte line
  notFrame : frameNumber? line = none

variable {F : Type} {env : TextEnv F} {finite : F → Prop}

/-- `std::to_chars` and `std::from_chars` on the finite values. -/
structure TextEnv.RoundTrips (env : TextEnv F) (finite : F → Prop) : Prop where
  fromChars_toChars : ∀ v, finite v → env.fromChars (env.toChars v) = v
  toChars_head : ∀ v, finite v → ∃ c rest, env.toChars v = c :: rest ∧
    (isDigitByte c || c == 46 || c == 45) = true
  toChars_mem : ∀ v, finite v → ∀ c ∈ env.toChars v, isFloatByte c = true

namespace TASScript

/-- The line of a frame number. -/
def frameLine (diff : Int) : Str := 43 :: (decimalInt diff ++ [58])

/-- The line of a convar. -/
def convarLine (env : TextEnv F) (cvar : Str × F) : Str := cvar.1 ++ 32 :: env.toChars cvar.2

/-- The sign of a toggle. -/
def signByte (value : Bool) : UInt8 := if value then 43 else 45

/-- The line of a toggle. -/
def toggleLine (toggle : Str × Bool) : Str := signByte toggle.2 :: toggle.1

/-! ### Convars -/

theorem isWhitespace_eq_false {line : Str} {c : UInt8} (hc : c ∈ line)
    (h : isSpaceByte c = false) : isWhitespace line = false := by
  unfold isWhitespace
  rw [all_eq_false]
  exact ⟨c, hc, by rw [h]; decide⟩

theorem scanConvar_skip {name : Str} (h : ∀ c ∈ name, isSpaceByte c = false) (rest : Str)
    (startIndex : ℕ) :
    scanConvar (name ++ rest) startIndex none =
      scanConvar rest (startIndex + name.length) none := by
  induction name generalizing startIndex with
  | nil => rfl
  | cons c name ih =>
    rw [cons_append, scanConvar, h c mem_cons_self, if_neg (by decide),
      ih (fun b hb => h b (mem_cons_of_mem _ hb)), length_cons]
    congr 1
    omega

section Convars

variable {name : Str} {v : F}

section

variable (henv : env.RoundTrips finite)
include henv

theorem convarIndices?_convarLine (hname : ConvarName env name) (hv : finite v) :
    convarIndices? env (convarLine env (name, v)) = some (name.length, name.length + 1) := by
  obtain ⟨c, rest, hchars, hc⟩ := henv.toChars_head v hv
  have hscan : scanConvar (name ++ 32 :: env.toChars v) 0 none =
      some (name.length, name.length + 1) := by
    rw [scanConvar_skip hname.noSpace, scanConvar, if_pos (by decide), hchars, scanConvar,
      if_pos hc, Nat.zero_add]
  unfold convarIndices? convarLine
  simp only [hscan]
  refine Option.filter_eq_some_iff.mpr ⟨rfl, ?_⟩
  rw [take_left, trim_eq_self (trimmed_of_forall hname.noSpace), cStr_eq_self hname.clean.noEnd]
  exact hname.isConvar

theorem contentLine_convarLine (hname : ConvarName env name)
    (hv : finite v) : ContentLine (convarLine env (name, v)) := by
  obtain ⟨c, rest, hchars, -⟩ := henv.toChars_head v hv
  have hplain : ∀ c ∈ env.toChars v, PlainByte c :=
    fun c hc => plainByte_of_isFloatByte (henv.toChars_mem v hv c hc)
  refine ⟨?_, ⟨?_, ?_⟩, ⟨?_, ?_⟩, ?_⟩
  · intro h
    exact hname.ne_nil (append_eq_nil_iff.mp h).1
  · intro b hb
    rcases mem_append.mp hb with hb | hb
    · exact hname.clean.noEnd b hb
    · rcases mem_cons.mp hb with rfl | hb
      · decide
      · exact (hplain b hb).2.1
  · exact NoDouble.join (by decide) hname.clean.noComment
      (noDouble_of_notMem fun hc => (hplain 47 hc).2.2 rfl)
  · intro b hb
    unfold convarLine at hb
    rw [head?_append_of_ne_nil _ hname.ne_nil] at hb
    exact hname.noSpace b (mem_of_mem_head? hb)
  · intro b hb
    -- the text of the value is not empty, and the last character is its last one
    have hne : env.toChars v ≠ [] := by
      rw [hchars]
      exact cons_ne_nil _ _
    unfold convarLine at hb
    rw [← singleton_append, ← append_assoc, getLast?_append_of_ne_nil _ hne] at hb
    exact (hplain b (mem_of_mem_getLast? hb)).1
  · exact frameNumber?_eq_none (mem_append_right _ mem_cons_self) (by decide)

theorem addLine_convarLine (hname : ConvarName env name) (hv : finite v) (fb : FrameBlock F) :
    fb.addLine env (convarLine env (name, v)) =
      { fb with convars := fb.convars.put name v } := by
  obtain ⟨c, hc⟩ := exists_mem_of_ne_nil name hname.ne_nil
  have hblank : isWhitespace (convarLine env (name, v)) = false :=
    isWhitespace_eq_false (mem_append_left _ hc) (hname.noSpace c hc)
  unfold addLine
  rw [hblank, convarIndices?_convarLine henv hname hv]
  show fb.parseConvar env (convarLine env (name, v)) name.length (name.length + 1) = _
  have hdrop : (convarLine env (name, v)).drop (name.length + 1) = env.toChars v := by
    unfold convarLine
    rw [← drop_drop, drop_left]
    rfl
  have hvalue :=
    cStr_eq_self fun c hc => (plainByte_of_isFloatByte (henv.toChars_mem v hv c hc)).2.1
  unfold parseConvar
  rw [hdrop, hvalue, henv.fromChars_toChars v hv]
  unfold convarLine
  rw [take_left]

theorem foldl_addLine_convars {l : List (Str × F)}
    (hname : ∀ name ∈ l.map Prod.fst, ConvarName env name) (hv : ∀ cvar ∈ l, finite cvar.2)
    (fb : FrameBlock F) :
    (l.map (convarLine env)).foldl (addLine env) fb =
      { fb with convars := fb.convars.putAll l } := by
  induction l generalizing fb with
  | nil => rfl
  | cons cvar l ih =>
    rw [map_cons, foldl_cons, addLine_convarLine henv (hname _ mem_cons_self) (hv _ mem_cons_self),
      ih (fun n hn => hname n (mem_cons_of_mem _ hn))
        (fun c hc => hv c (mem_cons_of_mem _ hc))]
    rfl

end

end Convars

/-! ### Toggles -/

section Toggles

variable {name : Str}

theorem plainByte_signByte (value : Bool) : PlainByte (signByte value) := by
  cases value <;> decide

theorem plainByte_of_mem_toggleLine (hname : ToggleName name) (value : Bool) :
    ∀ c ∈ toggleLine (name, value), PlainByte c := by
  intro c hc
  rcases mem_cons.mp hc with rfl | hc
  · exact plainByte_signByte value
  · exact plainByte_of_isWordByte (hname.word c hc)

theorem contentLine_toggleLine (hname : ToggleName name) (value : Bool) :
    ContentLine (toggleLine (name, value)) := by
  have hplain := plainByte_of_mem_toggleLine hname value
  refine ⟨cons_ne_nil _ _, cleanLine_of_plain hplain, trimmed_of_plain hplain, ?_⟩
  -- there is no colon
  rw [Option.eq_none_iff_forall_ne_some]
  rintro ⟨plus, digits⟩ hsome
  have hline := (frameNumber?_eq_some_iff.mp hsome).2.2
  have hcolon : (58 : UInt8) ∈ toggleLine (name, value) := by
    rw [hline]
    exact mem_append_right _ (mem_append_right _ mem_cons_self)
  rcases mem_cons.mp hcolon with hsign | hmem
  · have hne : ∀ value, (58 : UInt8) ≠ signByte value := by decide
    exact hne value hsign
  · exact absurd (hname.word 58 hmem) (by decide)

theorem convarIndices?_toggleLine (hname : ToggleName name) (value : Bool) :
    convarIndices? env (toggleLine (name, value)) = none := by
  have hscan : scanConvar (toggleLine (name, value)) 0 none = none := by
    have hskip := scanConvar_skip
      (fun c hc => (plainByte_of_mem_toggleLine hname value c hc).1) [] 0
    rw [append_nil] at hskip
    exact hskip
  unfold convarIndices?
  rw [hscan]
  rfl

theorem addLine_toggleLine (hname : ToggleName name) (value : Bool) (fb : FrameBlock F) :
    fb.addLine env (toggleLine (name, value)) =
      { fb with toggles := fb.toggles.put name value } := by
  have htoggle : toggle? (toggleLine (name, value)) = some (value, name) := by
    have hword : name.all isWordByte = true := all_eq_true.mpr hname.word
    have hsign : ∀ value, (signByte value = 43 ∨ signByte value = 45) ∧
        (signByte value == 43) = value := by decide
    unfold toggleLine
    rw [toggle?, if_pos ⟨(hsign value).1, hname.ne_nil, hword⟩, (hsign value).2]
  have hblank : isWhitespace (toggleLine (name, value)) = false :=
    isWhitespace_eq_false mem_cons_self
      (plainByte_of_mem_toggleLine hname value _ mem_cons_self).1
  unfold addLine
  rw [hblank, convarIndices?_toggleLine hname, htoggle]
  rfl

theorem foldl_addLine_toggles {l : List (Str × Bool)}
    (hname : ∀ name ∈ l.map Prod.fst, ToggleName name) (fb : FrameBlock F) :
    (l.map toggleLine).foldl (addLine env) fb =
      { fb with toggles := fb.toggles.putAll l } := by
  induction l generalizing fb with
  | nil => rfl
  | cons toggle l ih =>
    rw [map_cons, foldl_cons, addLine_toggleLine (hname _ mem_cons_self),
      ih fun n hn => hname n (mem_cons_of_mem _ hn)]
    rfl

end Toggles

/-! ### Commands -/

theorem contentLine_command {cmd : Str} (h : CommandLine env cmd) : ContentLine cmd := by
  refine ⟨?_, h.clean, h.trimmed, h.notFrame⟩
  rintro rfl
  exact absurd h.notBlank (by decide)

theorem addLine_command {cmd : Str} (h : CommandLine env cmd) (fb : FrameBlock F) :
    fb.addLine env cmd = fb.addCommand cmd := by
  unfold addLine
  rw [h.notBlank, h.notConvar, h.notToggle]
  rfl

theorem foldl_addLine_commands {l : List Str} (h : ∀ cmd ∈ l, CommandLine env cmd)
    (fb : FrameBlock F) :
    l.foldl (addLine env) fb = { fb with commands := fb.commands ++ l } := by
  induction l generalizing fb with
  | nil => rw [append_nil]; rfl
  | cons cmd l ih =>
    rw [foldl_cons, addLine_command (h cmd mem_cons_self), ih fun c hc => h c (mem_cons_of_mem _ hc)]
    show ({ fb with commands := (fb.commands ++ [cmd]) ++ l } : FrameBlock F) = _
    rw [append_assoc, singleton_append]

/-! ## Blocks -/

/-- The lines of a block after its frame number, without the tab they start with. -/
def contentLines (env : TextEnv F) (block : FrameBlock F) : List Str :=
  block.convars.values.map (convarLine env) ++ block.toggles.values.map toggleLine ++
    block.commands

/-- The lines of a block. -/
def blockLines (env : TextEnv F) (currentFrame : Int) (block : FrameBlock F) : List Str :=
  frameLine (block.frame - currentFrame) :: (contentLines env block).map (cons 9)

/-- The lines of a script. -/
def lines (env : TextEnv F) : Int → List (FrameBlock F) → List Str
  | _, [] => []
  | currentFrame, block :: blocks =>
    blockLines env currentFrame block ++ lines env block.frame blocks

section Block

variable {block : FrameBlock F}

theorem contentLine_of_mem (henv : env.RoundTrips finite) (h : PrintableBlock env block)
    (hfinite : ∀ cvar ∈ block.convars.values, finite cvar.2) :
    ∀ line ∈ contentLines env block, ContentLine line := by
  intro line hline
  rcases mem_append.mp hline with hline | hcmd
  · rcases mem_append.mp hline with hline | hline
    · obtain ⟨⟨name, v⟩, hcvar, rfl⟩ := mem_map.mp hline
      exact contentLine_convarLine henv (h.convars name (mem_map.mpr ⟨(name, v), hcvar, rfl⟩))
        (hfinite (name, v) hcvar)
    · obtain ⟨⟨name, value⟩, htoggle, rfl⟩ := mem_map.mp hline
      exact contentLine_toggleLine
        (h.toggles name (mem_map.mpr ⟨(name, value), htoggle, rfl⟩)) value
  · exact contentLine_command (h.commands line hcmd)

theorem foldl_addLine_contentLines (henv : env.RoundTrips finite) (h : PrintableBlock env block)
    (hfinite : ∀ cvar ∈ block.convars.values, finite cvar.2) (hparsed : block.parsed = true) :
    (contentLines env block).foldl (addLine env)
      { frame := block.frame, parsed := true } = block := by
  unfold contentLines
  rw [foldl_append, foldl_append, foldl_addLine_convars henv h.convars hfinite,
    foldl_addLine_toggles h.toggles, foldl_addLine_commands h.commands]
  obtain ⟨parsed, frame, convars, toggles, commands⟩ := block
  cases hparsed
  simp only [putAll_empty, nil_append]

theorem parse_tab {line : Str} (hne : line ≠ []) (hcomment : NoDouble 47 line)
    (htrim : Trimmed isSpaceByte line) (hframe : frameNumber? line = none) (st : Loader F) :
    st.parse env (9 :: line) = .ok
      { st with fb := st.fb.addLine env line, lineNumber := st.lineNumber + 1 } := by
  have htab := parseNewline_tab hne hcomment htrim
  have hparse : st.parse env (9 :: line) = .ok
      { st with
        fb := st.fb.addLine env (parseNewline (9 :: line))
        lineNumber := st.lineNumber + 1 } :=
    parse_content (by rw [htab]; exact hframe)
  rwa [htab] at hparse

theorem foldlM_content {contents : List Str} (h : ∀ line ∈ contents, ContentLine line)
    (st : Loader F) :
    (contents.map (cons 9)).foldlM (parse env) st = .ok
      { st with
        fb := contents.foldl (addLine env) st.fb
        lineNumber := st.lineNumber + contents.length } := by
  induction contents generalizing st with
  | nil => rfl
  | cons line contents ih =>
    have hline := h line mem_cons_self
    rw [map_cons, foldlM_cons,
      parse_tab hline.ne_nil hline.clean.noComment hline.trimmed hline.notFrame]
    show foldlM _ _ _ = _
    rw [ih fun l hl => h l (mem_cons_of_mem _ hl), length_cons]
    simp only [foldl_cons]
    congr 2
    omega

theorem decimalInt_of_nonneg {d : Int} (h : 0 ≤ d) : decimalInt d = decimal d.toNat := by
  unfold decimalInt
  rw [if_neg (by omega)]
  congr 1
  omega

theorem plainByte_of_mem_frameLine (diff : Int) : ∀ c ∈ frameLine diff, PlainByte c := by
  have hdecimal : ∀ c ∈ decimalInt diff, PlainByte c := by
    intro c hc
    unfold decimalInt at hc
    split at hc
    · rcases mem_cons.mp hc with rfl | hc
      · decide
      · exact plainByte_of_isDigitByte (isDigitByte_of_mem_decimal hc)
    · exact plainByte_of_isDigitByte (isDigitByte_of_mem_decimal hc)
  intro c hc
  rcases mem_cons.mp hc with rfl | hc
  · decide
  · rcases mem_append.mp hc with hc | hc
    · exact hdecimal c hc
    · rw [mem_singleton.mp hc]
      decide

theorem parse_frameLine {st : Loader F} {frame : Int} (hle : st.runningFrame ≤ frame)
    (hnear : Near st.runningFrame frame) :
    st.parse env (frameLine (frame - st.runningFrame)) = .ok
      { fb := { st.fresh with frame := frame, parsed := true }
        runningFrame := frame
        lineNumber := st.lineNumber + 1
        blocks := st.finish } := by
  have hplain := plainByte_of_mem_frameLine (frame - st.runningFrame)
  have hmatch : frameNumber? (parseNewline (frameLine (frame - st.runningFrame))) =
      some (true, decimal (frame - st.runningFrame).toNat) := by
    rw [parseNewline_of_trimmed (cleanLine_of_plain hplain) (trimmed_of_plain hplain),
      frameNumber?_eq_some_iff]
    refine ⟨decimal_ne_nil _, fun c hc => isDigitByte_of_mem_decimal hc, ?_⟩
    unfold frameLine
    rw [decimalInt_of_nonneg (by omega)]
    rfl
  have hfit : ofDecimal (decimal (frame - st.runningFrame).toNat) ≤ 2147483647 := by
    rw [ofDecimal_decimal]
    unfold Near at hnear
    omega
  have hframe : ((frame - st.runningFrame).toNat : Int) + st.runningFrame = frame := by omega
  rw [parse_frameNumber hmatch hfit]
  simp only [ofDecimal_decimal, if_true, hframe]

theorem with_frame_of_isBlank {fb : FrameBlock F} (h : fb.isBlank = true) (frame : Int) :
    { fb with frame := frame, parsed := true } =
      ({ frame := frame, parsed := true } : FrameBlock F) := by
  unfold isBlank at h
  simp only [Bool.and_eq_true] at h
  rw [(isEmpty_iff _).mp h.1.1, (isEmpty_iff _).mp h.2, isEmpty_iff.mp h.1.2]

theorem foldlM_blockLines (henv : env.RoundTrips finite) (h : PrintableBlock env block)
    (hfinite : ∀ cvar ∈ block.convars.values, finite cvar.2) (hparsed : block.parsed = true)
    {st : Loader F} (hle : st.runningFrame ≤ block.frame)
    (hnear : Near st.runningFrame block.frame)
    (hfresh : st.fresh.isBlank = true) :
    ∃ lineNumber, (blockLines env st.runningFrame block).foldlM (parse env) st = .ok
      { fb := block
        runningFrame := block.frame
        lineNumber := lineNumber
        blocks := st.finish } := by
  refine ⟨st.lineNumber + 1 + (contentLines env block).length, ?_⟩
  unfold blockLines
  rw [foldlM_cons, parse_frameLine hle hnear, with_frame_of_isBlank hfresh]
  show foldlM _ _ _ = _
  rw [foldlM_content (contentLine_of_mem henv h hfinite),
    foldl_addLine_contentLines henv h hfinite hparsed]

end Block

/-! ## Scripts -/

section Scripts

variable {blocks : List (FrameBlock F)}

/-- **The lines of a script are parsed back.** -/
theorem foldlM_lines (henv : env.RoundTrips finite)
    (hprint : ∀ b ∈ blocks, PrintableBlock env b) (hparsed : ∀ b ∈ blocks, b.parsed = true)
    (hfinite : ∀ b ∈ blocks, ∀ cvar ∈ b.convars.values, finite cvar.2) {st : Loader F}
    (hle : (st.runningFrame :: blocks.map frame).IsChain (· ≤ ·))
    (hnear : (st.runningFrame :: blocks.map frame).IsChain Near)
    (hfresh : st.fresh.isBlank = true) :
    ∃ st', (lines env st.runningFrame blocks).foldlM (parse env) st = .ok st' ∧
      st'.finish = st.finish ++ blocks := by
  induction blocks generalizing st with
  | nil => exact ⟨st, rfl, (append_nil _).symm⟩
  | cons b blocks ih =>
    have hb := hparsed b mem_cons_self
    rw [map_cons, isChain_cons_cons] at hle hnear
    obtain ⟨n, hblock⟩ := foldlM_blockLines henv (hprint b mem_cons_self)
      (hfinite b mem_cons_self) hb hle.1 hnear.1 hfresh
    let st₁ : Loader F := ⟨b, b.frame, n, st.finish⟩
    have hle₁ := hle.2
    have hfresh₁ : st₁.fresh.isBlank = true := by
      unfold fresh
      rw [if_pos hb]
      rfl
    have hfinish₁ : st₁.finish = st.finish ++ [b] := if_pos hb
    obtain ⟨st', hrest, hfinish⟩ := ih (fun b' hb' => hprint b' (mem_cons_of_mem _ hb'))
      (fun b' hb' => hparsed b' (mem_cons_of_mem _ hb'))
      (fun b' hb' => hfinite b' (mem_cons_of_mem _ hb')) hle₁ hnear.2 hfresh₁
    refine ⟨st', ?_, ?_⟩
    · rw [lines, foldlM_append, hblock]
      exact hrest
    · rw [hfinish, hfinish₁, append_assoc, singleton_append]

theorem exists_foldlM_lines (henv : env.RoundTrips finite) (hacc : Accepted env blocks)
    (hframes : (blocks.map frame).Pairwise (· ≤ ·))
    (hfinite : ∀ b ∈ blocks, ∀ cvar ∈ b.convars.values, finite cvar.2) :
    ∃ st : Loader F, (lines env 0 blocks).foldlM (parse env) {} = .ok st ∧
      st.finish = blocks := by
  -- the frames do not decrease, and the first one is not negative
  have hsorted : (({} : Loader F).runningFrame :: blocks.map frame).IsChain
      (· ≤ ·) := by
    refine (pairwise_cons.mpr ⟨fun f hf => ?_, hframes⟩).isChain
    exact hacc.nonneg f (mem_cons_of_mem _ hf)
  exact foldlM_lines henv hacc.printable hacc.parsed hfinite hsorted hacc.near rfl

theorem blockText_eq {b : FrameBlock F} (h : PrintableBlock env b) (currentFrame : Int) :
    blockText env currentFrame b = (blockLines env currentFrame b).map (· ++ [10]) := by
  have htab : str "\t" = [9] := rfl
  have hspace : str " " = [32] := rfl
  have hnewline : str "\n" = [10] := rfl
  have hplus : str "+" = [43] := rfl
  have hcolon : str ":\n" = [58, 10] := rfl
  have hconvars : (b.convars.values.map fun cvar =>
      str "\t" ++ cStr cvar.1 ++ str " " ++ env.toChars cvar.2 ++ str "\n") =
      b.convars.values.map fun cvar => 9 :: convarLine env cvar ++ [10] := by
    refine map_congr_left fun cvar hcvar => ?_
    have hname := h.convars cvar.1 (mem_map.mpr ⟨cvar, hcvar, rfl⟩)
    rw [cStr_eq_self hname.clean.noEnd, htab, hspace, hnewline]
    simp only [convarLine, append_assoc, cons_append, nil_append]
  have htoggles : (b.toggles.values.map fun toggle =>
      if toggle.2 then str "\t+" ++ cStr toggle.1 ++ str "\n"
      else str "\t-" ++ cStr toggle.1 ++ str "\n") =
      b.toggles.values.map fun toggle => 9 :: toggleLine toggle ++ [10] := by
    refine map_congr_left fun toggle htoggle => ?_
    have hname := h.toggles toggle.1 (mem_map.mpr ⟨toggle, htoggle, rfl⟩)
    rw [cStr_eq_self fun c hc => (plainByte_of_isWordByte (hname.word c hc)).2.1]
    obtain ⟨name, value⟩ := toggle
    cases value <;> rfl
  have hcommands : (b.commands.map fun cmd => str "\t" ++ cStr cmd ++ str "\n") =
      b.commands.map fun cmd => 9 :: cmd ++ [10] := by
    refine map_congr_left fun cmd hcmd => ?_
    rw [cStr_eq_self (h.commands cmd hcmd).clean.noEnd]
    rfl
  unfold blockText blockLines contentLines
  rw [hconvars, htoggles, hcommands]
  simp only [map_cons, map_append, map_map]
  congr 1
  rw [hplus, hcolon]
  simp only [frameLine, append_assoc, cons_append, nil_append]

theorem text_eq (hprint : ∀ b ∈ blocks, PrintableBlock env b) (currentFrame : Int) :
    text env currentFrame blocks = (lines env currentFrame blocks).map (· ++ [10]) := by
  induction blocks generalizing currentFrame with
  | nil => rfl
  | cons b blocks ih =>
    rw [text, lines, map_append, blockText_eq (hprint b mem_cons_self),
      ih fun b' hb' => hprint b' (mem_cons_of_mem _ hb')]

/-- A line that a reader finds in a buffer. -/
structure ReadableLine (line : Str) : Prop where
  ne_nil : line ≠ []
  noEnd : ∀ c ∈ line, isLineEnd c = false

theorem readableLine_of_mem (henv : env.RoundTrips finite)
    (hprint : ∀ b ∈ blocks, PrintableBlock env b)
    (hfinite : ∀ b ∈ blocks, ∀ cvar ∈ b.convars.values, finite cvar.2) (currentFrame : Int) :
    ∀ line ∈ lines env currentFrame blocks, ReadableLine line := by
  induction blocks generalizing currentFrame with
  | nil => exact fun line hline => absurd hline not_mem_nil
  | cons b blocks ih =>
    intro line hline
    rcases mem_append.mp hline with hline | hline
    · rcases mem_cons.mp hline with rfl | hline
      · exact ⟨cons_ne_nil _ _, fun c hc => (plainByte_of_mem_frameLine _ c hc).2.1⟩
      · obtain ⟨content, hcontent, rfl⟩ := mem_map.mp hline
        have hclean := (contentLine_of_mem henv (hprint b mem_cons_self)
          (hfinite b mem_cons_self) content hcontent).clean
        refine ⟨cons_ne_nil _ _, fun c hc => ?_⟩
        rcases mem_cons.mp hc with rfl | hc
        · decide
        · exact hclean.noEnd c hc
    · exact ih (fun b' hb' => hprint b' (mem_cons_of_mem _ hb'))
        (fun b' hb' => hfinite b' (mem_cons_of_mem _ hb')) _ line hline

end Scripts

/-! ## Reading the bytes -/

/-- What stands in the buffer for a line: the line and an end. -/
def Ended (line piece : Str) : Prop := ∃ c, isLineEnd c = true ∧ piece = line ++ [c]

theorem ended_of_printed {line piece : Str} (h : BufferWriter.Printed (line ++ [10]) piece) :
    Ended line piece := by
  rcases h with rfl | rfl
  · exact ⟨10, by decide, rfl⟩
  · exact ⟨0, by decide, by rw [dropLast_concat]⟩

variable {pieces : List Str}

theorem loop_of_pieces {texts : List Str} (h : List.Forall₂ Ended texts pieces)
    (hread : ∀ line ∈ texts, ReadableLine line) {reader : BufferReader} (hvalid : reader.Valid)
    (hrem : reader.remaining = pieces.flatten) {st st' : Loader F}
    (hparse : texts.foldlM (parse env) st = .ok st') {fuel : ℕ} (hfuel : texts.length ≤ fuel) :
    loop env fuel reader st =
      ⟨true, st'.finish, { reader with offset := reader.size }, []⟩ := by
  have hlen := length_remaining hvalid
  have hoffset := hvalid.offset_le
  induction h generalizing reader st fuel with
  | nil =>
    cases hparse
    rw [hrem] at hlen
    have hend : reader.offset = reader.size := by
      simp only [flatten_nil, length_nil] at hlen
      omega
    have hdone : reader.canRead = false := by
      unfold canRead
      rw [hend]
      exact decide_eq_false (lt_irrefl _)
    have hreader : ({ reader with offset := reader.size } : BufferReader) = reader := by
      obtain ⟨buffer, size, offset⟩ := reader
      cases hend
      rfl
    rw [hreader]
    cases fuel with
    | zero => rfl
    | succ fuel =>
      rw [loop, hdone]
      rfl
  | @cons line piece texts pieces hpiece _ ih =>
    obtain ⟨c, hc, rfl⟩ := hpiece
    have hline := hread line mem_cons_self
    have hsplit : reader.remaining = line ++ c :: pieces.flatten := by
      rw [hrem, flatten_cons, append_assoc, singleton_append]
    obtain ⟨hget, hvalid', hrem'⟩ :=
      getLine_of_remaining hvalid hsplit hline.ne_nil hline.noEnd hc
    have hcan : reader.canRead = true := by
      unfold canRead
      rw [hsplit, length_append, length_cons] at hlen
      exact decide_eq_true (by omega)
    rw [length_cons] at hfuel
    obtain ⟨fuel, rfl⟩ : ∃ k, fuel = k + 1 := ⟨fuel - 1, by omega⟩
    rw [foldlM_cons] at hparse
    cases hfirst : st.parse env line with
    | error e =>
      rw [hfirst] at hparse
      cases hparse
    | ok st₁ =>
      rw [hfirst] at hparse
      rw [loop, if_pos hcan, hget]
      simp only [hfirst]
      exact ih (fun l hl => hread l (mem_cons_of_mem _ hl)) hvalid' hrem' hparse
        (by omega) (length_remaining hvalid') hvalid'.offset_le

/-! ## Writing the bytes -/

/-- The script can be written: no line is too long for `vsnprintf`, its end is a 32-bit offset,
and doubling the size of the buffer reaches it. -/
structure Room (w : BufferWriter) (texts : List Str) : Prop where
  short : ∀ text ∈ texts, text.length < 2 ^ 31
  end_lt : w.offset + 4 + texts.flatten.length < 2 ^ 32
  reaches : w.Reaches (w.offset + 4 + texts.flatten.length)

section Writing

variable {w : BufferWriter} {blocks : List (FrameBlock F)}

theorem exists_writeToMemory (h : w.Valid) (hne : ∀ t ∈ text env 0 blocks, t ≠ [])
    (hroom : Room w (text env 0 blocks)) :
    ∃ w' pieces, writeToMemory env blocks w = some w' ∧ w'.Valid ∧
      w'.offset = w.offset + 4 + (text env 0 blocks).flatten.length ∧
      w'.mem.take w.offset = w.mem.take w.offset ∧
      slice w'.mem w.offset 4 = le32 (text env 0 blocks).flatten.length ∧
      List.Forall₂ BufferWriter.Printed (text env 0 blocks) pieces ∧
      slice w'.mem (w.offset + 4) (text env 0 blocks).flatten.length = pieces.flatten := by
  obtain ⟨hshort, hend, hreach⟩ := hroom
  generalize htexts : text env 0 blocks = texts at hne hshort hend hreach ⊢
  have hzeros : (str "0000").length = 4 := rfl
  obtain ⟨w₁, hw₁, hwrote₁, -, hreach₁⟩ :=
    exists_write h (show str "0000" ≠ [] by decide) (by rw [hzeros]; norm_num)
      (by rw [hzeros]; omega) hend hreach
  have hoff₁ := hwrote₁.offset_eq
  rw [hzeros] at hoff₁
  obtain ⟨w₂, pieces, hw₂, hwrote₂, hpieces, hslice⟩ :=
    exists_writeAll hwrote₁.valid hne hshort (by rw [hoff₁]) hend hreach₁
  have hoff₂ := hwrote₂.offset_eq
  have hv₂ := hwrote₂.valid
  rw [hoff₁] at hoff₂ hslice
  have hmem := hv₂.size_le
  have hsize := hv₂.offset_le
  have hlength : sub32 (sub32 w₂.offset w.offset) 4 = texts.flatten.length := by
    have hdiff : sub32 w₂.offset w.offset = texts.flatten.length + 4 := by
      rw [sub32_of_le (by omega) (by omega)]
      omega
    rw [hdiff, sub32_of_le (by omega) (by omega), Nat.add_sub_cancel]
  refine ⟨{ w₂.finalize with mem := memcpy w₂.mem w.offset (le32 texts.flatten.length) }, pieces,
    ?_, ⟨le_rfl, ?_, ?_⟩, hoff₂, ?_, ?_, hpieces, ?_⟩
  · unfold writeToMemory
    simp only [htexts, hw₁, hw₂, some_bind]
    show some ({ w₂.finalize with
      mem := memcpy w₂.mem w.offset (le32 (sub32 (sub32 w₂.offset w.offset) 4)) }) = _
    rw [hlength]
  · show w₂.offset ≤ (memcpy w₂.mem w.offset _).length
    rw [length_memcpy (by rw [length_le32]; omega)]
    omega
  · show w₂.offset < 2 ^ 32
    omega
  · show (memcpy w₂.mem w.offset _).take w.offset = _
    -- neither the text nor its length is written before the offset
    rw [take_memcpy le_rfl (by omega), (hwrote₁.append hwrote₂).1.take_eq]
  · show slice (memcpy w₂.mem w.offset _) w.offset 4 = _
    rw [slice_memcpy_take (by omega) (by rw [length_le32])]
    rfl
  · show slice (memcpy w₂.mem w.offset _) (w.offset + 4) _ = _
    rw [slice_memcpy_after (by omega) (by rw [length_le32]), hslice]

theorem finalized_of_writeToMemory (h : w.Valid) {w' : BufferWriter}
    (hw : writeToMemory env blocks w = some w') : w'.Valid ∧ w'.size = w'.offset := by
  unfold writeToMemory at hw
  simp only [bind_eq_some, Option.some.injEq] at hw
  obtain ⟨w₁, hw₁, w₂, hw₂, rfl⟩ := hw
  obtain ⟨hgrown₁, -⟩ := grown_write h hw₁
  obtain ⟨⟨hvalid, -⟩, -⟩ := grown_writeAll hgrown₁.valid hw₂
  have hoff := hvalid.offset_le
  have hlt := hvalid.size_lt
  refine ⟨⟨le_rfl, ?_, ?_⟩, rfl⟩
  · show w₂.offset ≤ (memcpy w₂.mem w.offset _).length
    exact (hoff.trans hvalid.size_le).trans (length_le_memcpy _ _ _)
  · show w₂.offset < 2 ^ 32
    omega

theorem room_of_writeToMemory (h : w.Valid) {w' : BufferWriter}
    (hw : writeToMemory env blocks w = some w') :
    w.Reaches w'.offset ∧ w'.offset < 2 ^ 32 ∧
      w'.offset = (w.offset + 4 + (text env 0 blocks).flatten.length) % 2 ^ 32 ∧
      ∀ t ∈ text env 0 blocks, t.length < 2 ^ 31 := by
  unfold writeToMemory at hw
  simp only [bind_eq_some, Option.some.injEq] at hw
  obtain ⟨w₁, hw₁, w₂, hw₂, rfl⟩ := hw
  have hzeros : (str "0000").length = 4 := rfl
  obtain ⟨hgrown₁, hoff₁, -⟩ := grown_write h hw₁
  obtain ⟨hgrown₂, hoff₂, hshort⟩ := grown_writeAll hgrown₁.valid hw₂
  refine ⟨(hgrown₁.trans hgrown₂).reaches _ hgrown₂.valid.reaches_offset, ?_, ?_, hshort⟩
  · exact lt_of_le_of_lt hgrown₂.valid.offset_le hgrown₂.valid.size_lt
  · show w₂.offset = _
    rw [hoff₂, hoff₁, hzeros, Nat.mod_add_mod]

end Writing

theorem loadFromMemory_of_slices {buffer : List UInt8} {size offset length : ℕ} {texts : List Str}
    {st' : Loader F} (hsize : offset + 4 + length ≤ size) (hword : size < 2 ^ 32)
    (hbuffer : size ≤ buffer.length) (hhead : slice buffer offset 4 = le32 length)
    (hbody : slice buffer (offset + 4) length = pieces.flatten)
    (hpieces : List.Forall₂ Ended texts pieces) (hread : ∀ line ∈ texts, ReadableLine line)
    (hparse : texts.foldlM (parse env) {} = .ok st') :
    loadFromMemory env [] ⟨buffer, size, offset⟩ =
      some ⟨true, st'.finish, ⟨buffer, size, offset + 4 + length⟩, []⟩ := by
  have hfour : min (sub32 size offset) 4 = 4 := by
    rw [sub32_of_le (by omega) hword]
    omega
  have hhead' : readUInt32 ⟨buffer, size, offset⟩ =
      some (length, ⟨buffer, size, offset + 4⟩) := by
    unfold readUInt32 BufferReader.read
    simp only [hfour, hhead, length_le32, if_true, ofLe_le32 (show length < 2 ^ 32 by omega)]
  have hvalid : BufferReader.Valid ⟨buffer, length + (offset + 4), offset + 4⟩ :=
    ⟨by show offset + 4 ≤ length + (offset + 4); omega,
      by show length + (offset + 4) ≤ buffer.length; omega⟩
  have hrem : remaining ⟨buffer, length + (offset + 4), offset + 4⟩ =
      pieces.flatten := by
    unfold remaining
    rw [Nat.add_sub_cancel, hbody]
  have hfuel : texts.length ≤ length + (offset + 4) - (offset + 4) := by
    -- every line takes at least a byte
    have hcount : ∀ {texts pieces : List Str}, List.Forall₂ Ended texts pieces →
        texts.length ≤ pieces.flatten.length := by
      intro texts pieces h
      induction h with
      | nil => exact le_rfl
      | cons hpiece _ ih =>
        obtain ⟨c, -, rfl⟩ := hpiece
        simp only [length_cons, flatten_cons, length_append, length_nil]
        omega
    have hlen := length_remaining hvalid
    rw [hrem] at hlen
    exact hlen ▸ hcount hpieces
  unfold loadFromMemory loadFromReader
  rw [hhead']
  simp only [some_bind]
  rw [Nat.mod_eq_of_lt (show length + (offset + 4) < 2 ^ 32 by omega),
    loop_of_pieces hpieces hread hvalid hrem hparse hfuel, Nat.add_comm length]

/-! ## The round trip -/

/-- What is written of a script is read back, and the reader stands at the end of what has been
written: `blocks` are the blocks, `length` is the length of their text. -/
def ReadBack (env : TextEnv F) (blocks : List (FrameBlock F)) (length : ℕ) (w : BufferWriter) :
    Prop :=
  ∃ w', writeToMemory env blocks w = some w' ∧ w'.offset = w.offset + 4 + length ∧
    w'.mem.take w.offset = w.mem.take w.offset ∧
    ∀ (buffer : List UInt8) (size : ℕ), w'.offset ≤ size → size ≤ buffer.length →
      size < 2 ^ 32 → buffer.take w'.offset = w'.mem.take w'.offset →
      loadFromMemory env [] ⟨buffer, size, w.offset⟩ =
        some ⟨true, blocks, ⟨buffer, size, w'.offset⟩, []⟩

variable {blocks : List (FrameBlock F)}

theorem text_ne_nil (hacc : Accepted env blocks) : ∀ t ∈ text env 0 blocks, t ≠ [] := by
  intro t ht
  rw [text_eq hacc.printable 0] at ht
  obtain ⟨line, -, rfl⟩ := mem_map.mp ht
  exact append_ne_nil_of_right_ne_nil _ (cons_ne_nil _ _)

theorem loadFromMemory_of_printed (henv : env.RoundTrips finite) (hacc : Accepted env blocks)
    (hframes : (blocks.map frame).Pairwise (· ≤ ·))
    (hfinite : ∀ b ∈ blocks, ∀ cvar ∈ b.convars.values, finite cvar.2) {buffer : List UInt8}
    {size offset : ℕ} (hprinted : List.Forall₂ BufferWriter.Printed (text env 0 blocks) pieces)
    (hsize : offset + 4 + (text env 0 blocks).flatten.length ≤ size) (hword : size < 2 ^ 32)
    (hbuffer : size ≤ buffer.length)
    (hhead : slice buffer offset 4 = le32 (text env 0 blocks).flatten.length)
    (hbody : slice buffer (offset + 4) (text env 0 blocks).flatten.length = pieces.flatten) :
    loadFromMemory env [] ⟨buffer, size, offset⟩ =
      some ⟨true, blocks, ⟨buffer, size, offset + 4 + (text env 0 blocks).flatten.length⟩, []⟩ := by
  have hpieces : List.Forall₂ Ended (lines env 0 blocks) pieces := by
    rw [text_eq hacc.printable 0, forall₂_map_left_iff] at hprinted
    exact hprinted.imp fun _ _ => ended_of_printed
  obtain ⟨st', hparse, hfinish⟩ := exists_foldlM_lines henv hacc hframes hfinite
  rw [loadFromMemory_of_slices hsize hword hbuffer hhead hbody hpieces
    (readableLine_of_mem henv hacc.printable hfinite 0) hparse, hfinish]

theorem readBack_of_room (henv : env.RoundTrips finite) (hacc : Accepted env blocks)
    (hframes : (blocks.map frame).Pairwise (· ≤ ·))
    (hfinite : ∀ b ∈ blocks, ∀ cvar ∈ b.convars.values, finite cvar.2) {w : BufferWriter}
    (hw : w.Valid) (hroom : Room w (text env 0 blocks)) :
    ReadBack env blocks (text env 0 blocks).flatten.length w := by
  obtain ⟨w', pieces, hwrite, -, hoffset, htake, hhead, hprinted, hbody⟩ :=
    exists_writeToMemory hw (text_ne_nil hacc) hroom
  refine ⟨w', hwrite, hoffset, htake, fun buffer size hsize hbuffer hword hsame => ?_⟩
  rw [hoffset] at hsame hsize ⊢
  exact loadFromMemory_of_printed henv hacc hframes hfinite hprinted hsize hword hbuffer
    ((slice_congr hsame (by omega)).trans hhead) ((slice_congr hsame le_rfl).trans hbody)

theorem room_of_readBack {w : BufferWriter} (hw : w.Valid)
    (h : ReadBack env blocks (text env 0 blocks).flatten.length w) :
    Room w (text env 0 blocks) := by
  obtain ⟨w', hwrite, hoffset, -⟩ := h
  obtain ⟨hreach, hlt, -, hshort⟩ := room_of_writeToMemory hw hwrite
  rw [hoffset] at hreach hlt
  exact ⟨hshort, hlt, hreach⟩

/-- **A script that has been accepted is read back from where it has been written**, with the
reader at the end of what has been written, exactly if there is room for it. -/
theorem script_round_trip_iff_room (henv : env.RoundTrips finite) (input : Str)
    (haccepted : (loadFromString env [] input).rval = true)
    (hframes : ((loadFromString env [] input).blocks.map frame).Pairwise (· ≤ ·))
    (hfinite : ∀ b ∈ (loadFromString env [] input).blocks, ∀ cvar ∈ b.convars.values, finite cvar.2)
    (w : BufferWriter) (hw : w.Valid) :
    ReadBack env (loadFromString env [] input).blocks
        (text env 0 (loadFromString env [] input).blocks).flatten.length w ↔
      Room w (text env 0 (loadFromString env [] input).blocks) :=
  ⟨room_of_readBack hw,
    readBack_of_room henv (accepted_of_loadFromString haccepted) hframes hfinite hw⟩

/-- Integers as convar values. -/
def integerText (isConvar : Str → Bool) : TextEnv Int where
  isConvar := isConvar
  toChars := decimalInt
  fromChars := fun s => if s.head? = some 45 then -(ofDecimal s.tail : Int) else ofDecimal s

theorem isFloatByte_of_isDigitByte {c : UInt8} (h : isDigitByte c = true) :
    isFloatByte c = true := by
  unfold isFloatByte
  rw [h]
  rfl

theorem integerText_roundTrips (isConvar : Str → Bool) :
    (integerText isConvar).RoundTrips fun _ => True := by
  have hcases : ∀ v : Int, (v < 0 ∧ decimalInt v = 45 :: decimal v.natAbs) ∨
      (0 ≤ v ∧ ∃ c rest, decimalInt v = c :: rest ∧ decimal v.natAbs = c :: rest ∧
        isDigitByte c = true) := by
    intro v
    unfold decimalInt
    by_cases hv : v < 0
    · exact .inl ⟨hv, if_pos hv⟩
    · obtain ⟨c, rest, hdecimal⟩ := exists_cons_of_ne_nil (decimal_ne_nil v.natAbs)
      exact .inr ⟨by omega, c, rest, by rw [if_neg hv, hdecimal], hdecimal,
        isDigitByte_of_mem_decimal (hdecimal ▸ mem_cons_self)⟩
  refine ⟨fun v _ => ?_, fun v _ => ?_, fun v _ => ?_⟩
  · show (if (decimalInt v).head? = some 45 then -(ofDecimal (decimalInt v).tail : Int)
      else ofDecimal (decimalInt v)) = v
    rcases hcases v with ⟨hneg, hchars⟩ | ⟨hpos, c, rest, hchars, hdecimal, hdigit⟩
    · rw [hchars, head?_cons, if_pos rfl, tail_cons, ofDecimal_decimal]
      omega
    · have hsign : ¬ (some c = some (45 : UInt8)) := by
        rintro ⟨⟩
        exact absurd hdigit (by decide)
      rw [hchars, head?_cons, if_neg hsign, ← hdecimal, ofDecimal_decimal]
      omega
  · show ∃ c rest, decimalInt v = c :: rest ∧ _
    rcases hcases v with ⟨-, hchars⟩ | ⟨-, c, rest, hchars, -, hdigit⟩
    · exact ⟨45, _, hchars, by decide⟩
    · exact ⟨c, rest, hchars, by rw [hdigit]; rfl⟩
  · show ∀ c ∈ decimalInt v, _
    intro c hc
    rcases hcases v with ⟨-, hchars⟩ | ⟨-, d, rest, hchars, hdecimal, -⟩
    · rw [hchars] at hc
      rcases mem_cons.mp hc with rfl | hc
      · decide
      · exact isFloatByte_of_isDigitByte (isDigitByte_of_mem_decimal hc)
    · rw [hchars, ← hdecimal] at hc
      exact isFloatByte_of_isDigitByte (isDigitByte_of_mem_decimal hc)

/-- Two blocks, with a comment and a blank line. -/
def twoBlocks : Str := str "5: // start\n\ttas_yaw -90\n+jump\n\nimpulse 7\n+3:\n-jump"

/-- Two blocks written after three bytes. -/
theorem script_round_trip_two_blocks :
    (loadFromString (integerText fun name => name == str "tas_yaw") [] twoBlocks).blocks.map
      frame = [5, 8] ∧
    ReadBack (integerText fun name => name == str "tas_yaw")
      (loadFromString (integerText fun name => name == str "tas_yaw") [] twoBlocks).blocks
      (text (integerText fun name => name == str "tas_yaw") 0
        (loadFromString (integerText fun name => name == str "tas_yaw") []
          twoBlocks).blocks).flatten.length
      ⟨[1, 2, 3, 0], 4, 3⟩ := by
  have hiff := script_round_trip_iff_room (integerText_roundTrips fun name => name == str "tas_yaw")
    twoBlocks (by decide +kernel) (by decide +kernel) (fun _ _ _ _ => trivial)
    ⟨[1, 2, 3, 0], 4, 3⟩ (by decide)
  refine ⟨by decide +kernel, hiff.mpr ⟨by decide +kernel, by decide +kernel, ?_⟩⟩
  exact reaches_of_le (by decide) (by decide +kernel)

/-- A script of one block, and a buffer of `2 ^ 31` bytes that is full. -/
theorem full_buffer_is_never_written :
    (integerText fun _ => false).RoundTrips (fun _ => True) ∧
    (loadFromString (integerText fun _ => false) [] (str "1:")).rval = true ∧
    ((loadFromString (integerText fun _ => false) [] (str "1:")).blocks.map
      frame).Pairwise (· ≤ ·) ∧
    (⟨replicate (2 ^ 31) 0, 2 ^ 31, 2 ^ 31⟩ : BufferWriter).Valid ∧
    writeToMemory (integerText fun _ => false)
      (loadFromString (integerText fun _ => false) [] (str "1:")).blocks
      ⟨replicate (2 ^ 31) 0, 2 ^ 31, 2 ^ 31⟩ = none := by
  have hvalid : (⟨replicate (2 ^ 31) 0, 2 ^ 31, 2 ^ 31⟩ : BufferWriter).Valid :=
    valid_full
  refine ⟨integerText_roundTrips _, by decide +kernel, by decide +kernel, hvalid, ?_⟩
  rw [Option.eq_none_iff_forall_ne_some]
  intro w' hw'
  obtain ⟨hreach, -, hoffset, -⟩ := room_of_writeToMemory hvalid hw'
  have hlength : (text (integerText fun _ => false) 0
      (loadFromString (integerText fun _ => false) [] (str "1:")).blocks).flatten.length = 4 := by
    decide +kernel
  rw [hlength] at hoffset
  exact not_reaches_of_full rfl (by rw [hoffset]; norm_num) hreach

end TASScript

end TASQuake
