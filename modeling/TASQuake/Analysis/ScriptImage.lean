import TASQuake.Analysis.BufferIo
import TASQuake.Model.ScriptText

/-!
# What a script that has been read looks like

Not every script can be written down: a command `+5:` would be read back as a frame number.  The
scripts that the parser produces can (`Accepted`): every name and every command is of the kind that
the parser takes it for.  `parseLine_eq` separates the two things that a line can do, to start a
block or to add to it (`addLine`).
-/

namespace TASQuake

open Lib Io Loader FrameBlock List

/-! ## Bytes -/

/-- A byte that is no space, ends no line and starts no comment. -/
def PlainByte (c : UInt8) : Prop := isSpaceByte c = false ∧ isLineEnd c = false ∧ c ≠ 47

instance (c : UInt8) : Decidable (PlainByte c) :=
  inferInstanceAs (Decidable (_ ∧ _ ∧ _))

variable {c : UInt8}

theorem plainByte_of_le (h : 48 ≤ c.toNat) : PlainByte c := by
  unfold PlainByte isSpaceByte isLineEnd
  simp only [Bool.or_eq_false_iff, decide_eq_false_iff_not, beq_eq_false_iff_ne, ne_eq,
    UInt8.le_iff_toNat_le, ← UInt8.toNat_inj, UInt8.reduceToNat]
  omega

theorem plainByte_of_isDigitByte (h : isDigitByte c = true) : PlainByte c := by
  unfold isDigitByte at h
  rw [Bool.and_eq_true, decide_eq_true_eq, decide_eq_true_eq] at h
  exact plainByte_of_le h.1

theorem plainByte_of_isWordByte (h : isWordByte c = true) : PlainByte c := by
  unfold isWordByte at h
  simp only [Bool.or_eq_true, decide_eq_true_eq, beq_iff_eq] at h
  rcases h with ((h | h) | h) | rfl
  · exact plainByte_of_isDigitByte h
  · exact plainByte_of_le (le_trans (by decide) (UInt8.le_iff_toNat_le.mp h.1))
  · exact plainByte_of_le (le_trans (by decide) (UInt8.le_iff_toNat_le.mp h.1))
  · decide

theorem cStr_eq_self {s : Str} (h : ∀ c ∈ s, isLineEnd c = false) : TASScript.cStr s = s := by
  refine (TASScript.cStr_eq_self_iff s).mpr fun hmem => ?_
  exact absurd (h 0 hmem) (by decide)

/-! ## Lines -/

/-- A text in which no line ends and no comment starts. -/
structure CleanLine (line : Str) : Prop where
  noEnd : ∀ c ∈ line, isLineEnd c = false
  noComment : NoDouble 47 line

variable {line : Str}

theorem CleanLine.of_isInfix {part : Str} (h : CleanLine line) (hpart : part <:+: line) :
    CleanLine part :=
  ⟨fun c hc => h.noEnd c (hpart.subset hc), h.noComment.of_isInfix hpart⟩

theorem cleanLine_parseNewline {rawLine : Str} (h : ∀ c ∈ rawLine, isLineEnd c = false) :
    CleanLine (parseNewline rawLine) := by
  have hcut : CleanLine (cutAt 47 rawLine) :=
    ⟨fun c hc => h c ((cutAt_isPrefix rawLine).subset hc), noDouble_cutAt rawLine⟩
  exact hcut.of_isInfix (trim_isInfix isSpaceByte _)

theorem trimmed_parseNewline (rawLine : Str) : Trimmed isSpaceByte (parseNewline rawLine) :=
  trimmed_trim isSpaceByte _

variable {plus : Bool}

theorem frameNumber?_eq_some_iff {digits : Str} :
    frameNumber? line = some (plus, digits) ↔
      digits ≠ [] ∧ (∀ c ∈ digits, isDigitByte c = true) ∧
        line = (if plus then [43] else []) ++ (digits ++ [58]) := by
  have hcolon : isDigitByte 58 = false := by decide
  unfold frameNumber?
  simp only
  constructor
  · intro h
    generalize hrest : (if (line.head? == some 43) = true then line.tail else line) = rest at h
    split at h
    · next hmatch =>
      cases h
      refine ⟨hmatch.1, fun c hc => mem_takeWhile_imp hc, ?_⟩
      have hsplit : rest.takeWhile isDigitByte ++ [58] = rest := by
        rw [← hmatch.2, takeWhile_append_dropWhile]
      rw [hsplit, ← hrest]
      cases line with
      | nil => rfl
      | cons c line =>
        by_cases hc : c = 43
        · subst hc
          rfl
        · simp [hc]
    · cases h
  · rintro ⟨hne, hdigits, rfl⟩
    have hrest : (if (((if plus then [43] else []) ++ (digits ++ [58])).head? == some 43) = true
        then ((if plus then [43] else []) ++ (digits ++ [58])).tail
        else (if plus then [43] else []) ++ (digits ++ [58])) = digits ++ [58] ∧
        (((if plus then [43] else []) ++ (digits ++ [58])).head? == some 43) = plus := by
      cases plus with
      | true => exact ⟨rfl, rfl⟩
      | false =>
        -- a digit is not a plus
        cases digits with
        | nil => exact absurd rfl hne
        | cons c digits =>
          have hc : c ≠ 43 := by
            rintro rfl
            exact absurd (hdigits 43 mem_cons_self) (by decide)
          simp [hc]
    rw [hrest.1, hrest.2, takeWhile_append_of_pos hdigits,
      dropWhile_append_of_pos hdigits, takeWhile_cons_of_neg (by rw [hcolon]; decide),
      dropWhile_cons_of_neg (by rw [hcolon]; decide), append_nil, if_pos ⟨hne, rfl⟩]

theorem frameNumber?_eq_none (hc : c ∈ line) (h : c ≠ 43 ∧ c ≠ 58 ∧ isDigitByte c = false) :
    frameNumber? line = none := by
  rw [Option.eq_none_iff_forall_ne_some]
  rintro ⟨plus, digits⟩ hsome
  obtain ⟨-, hdigits, rfl⟩ := frameNumber?_eq_some_iff.mp hsome
  rcases mem_append.mp hc with hc | hc
  · cases plus with
    | true => exact h.1 (mem_singleton.mp hc)
    | false => exact absurd hc not_mem_nil
  · rcases mem_append.mp hc with hc | hc
    · rw [hdigits c hc] at h
      exact absurd h.2.2 (by decide)
    · exact h.2.1 (mem_singleton.mp hc)

theorem isWhitespace_of_frameNumber? {digits : Str} (h : frameNumber? line = some (plus, digits)) :
    isWhitespace line = false := by
  obtain ⟨hne, hdigits, rfl⟩ := frameNumber?_eq_some_iff.mp h
  obtain ⟨c, hc⟩ := exists_mem_of_ne_nil digits hne
  unfold isWhitespace
  rw [all_eq_false]
  refine ⟨c, mem_append_right _ (mem_append_left _ hc), ?_⟩
  rw [(plainByte_of_isDigitByte (hdigits c hc)).1]
  decide

/-- A digit, a point or a minus. -/
def startsValue (c : UInt8) : Bool := isDigitByte c || c == 46 || c == 45

variable {s t : ℕ}

theorem scanConvar_behind_space {startIndex spaceIndex : ℕ} :
    scanConvar line startIndex (some spaceIndex) = some (s, t) ↔
      s = spaceIndex ∧ ∃ between value, line = between ++ value ∧
        (∀ c ∈ between, startsValue c = false) ∧ (∃ c ∈ value.head?, startsValue c = true) ∧
        t = startIndex + between.length := by
  induction line generalizing startIndex with
  | nil =>
    constructor
    · intro h
      cases h
    · rintro ⟨-, between, value, hline, -, ⟨c, hc, -⟩, -⟩
      rw [(append_eq_nil_iff.mp hline.symm).2] at hc
      cases hc
  | cons c rest ih =>
    rw [scanConvar]
    by_cases hc : startsValue c = true
    · have hstop : (isDigitByte c || c == 46 || c == 45) = true := hc
      rw [if_pos hstop]
      constructor
      · intro h
        cases h
        exact ⟨rfl, [], c :: rest, rfl, fun b hb => absurd hb not_mem_nil, ⟨c, rfl, hc⟩, rfl⟩
      · rintro ⟨rfl, between, value, hline, hbetween, -, rfl⟩
        cases between with
        | nil => rfl
        | cons b between =>
          cases hline
          rw [hbetween c mem_cons_self] at hc
          cases hc
    · have hgo : ¬ (isDigitByte c || c == 46 || c == 45) = true := hc
      rw [if_neg hgo, ih]
      constructor
      · rintro ⟨rfl, between, value, rfl, hbetween, hvalue, rfl⟩
        refine ⟨rfl, c :: between, value, rfl, ?_, hvalue, by rw [length_cons]; omega⟩
        intro b hb
        rcases mem_cons.mp hb with rfl | hb
        · simpa using hc
        · exact hbetween b hb
      · rintro ⟨rfl, between, value, hline, hbetween, hvalue, rfl⟩
        cases between with
        | nil =>
          rw [nil_append] at hline
          obtain ⟨b, hb, hstarts⟩ := hvalue
          rw [← hline] at hb
          cases hb
          exact absurd hstarts hc
        | cons b between =>
          cases hline
          exact ⟨rfl, between, value, rfl, fun b hb => hbetween b (mem_cons_of_mem _ hb),
            hvalue, by rw [length_cons]; omega⟩

theorem scanConvar_eq_some_iff {startIndex : ℕ} :
    scanConvar line startIndex none = some (s, t) ↔
      ∃ name space between value, line = name ++ space :: (between ++ value) ∧
        (∀ c ∈ name, isSpaceByte c = false) ∧ isSpaceByte space = true ∧
        (∀ c ∈ between, startsValue c = false) ∧ (∃ c ∈ value.head?, startsValue c = true) ∧
        s = startIndex + name.length ∧ t = startIndex + name.length + 1 + between.length := by
  induction line generalizing startIndex with
  | nil =>
    constructor
    · intro h
      cases h
    · rintro ⟨name, space, between, value, hline, -⟩
      exact absurd (append_eq_nil_iff.mp hline.symm).2 (cons_ne_nil _ _)
  | cons c rest ih =>
    rw [scanConvar]
    by_cases hc : isSpaceByte c = true
    · rw [if_pos hc, scanConvar_behind_space]
      constructor
      · rintro ⟨rfl, between, value, rfl, hbetween, hvalue, rfl⟩
        exact ⟨[], c, between, value, rfl, fun b hb => absurd hb not_mem_nil, hc, hbetween,
          hvalue, rfl, rfl⟩
      · rintro ⟨name, space, between, value, hline, hname, hspace, hbetween, hvalue, rfl, rfl⟩
        cases name with
        | nil =>
          cases hline
          exact ⟨rfl, between, value, rfl, hbetween, hvalue, rfl⟩
        | cons b name =>
          cases hline
          rw [hname c mem_cons_self] at hc
          cases hc
    · rw [if_neg hc, ih]
      constructor
      · rintro ⟨name, space, between, value, rfl, hname, hspace, hbetween, hvalue, rfl, rfl⟩
        refine ⟨c :: name, space, between, value, rfl, ?_, hspace, hbetween, hvalue, ?_, ?_⟩
        · intro b hb
          rcases mem_cons.mp hb with rfl | hb
          · simpa using hc
          · exact hname b hb
        · rw [length_cons]
          omega
        · rw [length_cons]
          omega
      · rintro ⟨name, space, between, value, hline, hname, hspace, hbetween, hvalue, rfl, rfl⟩
        cases name with
        | nil =>
          cases hline
          exact absurd hspace hc
        | cons b name =>
          cases hline
          refine ⟨name, space, between, value, rfl,
            fun b hb => hname b (mem_cons_of_mem _ hb), hspace, hbetween, hvalue, ?_, ?_⟩
          · rw [length_cons]
            omega
          · rw [length_cons]
            omega

/-! ## Names and commands -/

/-- A name that is read back as the name of a convar. -/
structure ConvarName {F : Type} (env : TextEnv F) (name : Str) : Prop where
  ne_nil : name ≠ []
  noSpace : ∀ c ∈ name, isSpaceByte c = false
  clean : CleanLine name
  isConvar : env.isConvar name = true

/-- A name that is read back as the name of a toggle. -/
structure ToggleName (name : Str) : Prop where
  ne_nil : name ≠ []
  word : ∀ c ∈ name, isWordByte c = true

/-- A line that is read back as a command. -/
structure CommandLine {F : Type} (env : TextEnv F) (line : Str) : Prop where
  clean : CleanLine line
  trimmed : Trimmed isSpaceByte line
  notBlank : isWhitespace line = false
  notFrame : frameNumber? line = none
  notConvar : convarIndices? env line = none
  notToggle : toggle? line = none

variable {F : Type} {env : TextEnv F}

theorem convarName_take (hclean : CleanLine line) (htrim : Trimmed isSpaceByte line)
    (h : convarIndices? env line = some (s, t)) : ConvarName env (line.take s) := by
  unfold convarIndices? at h
  obtain ⟨hscan, hconvar⟩ := Option.filter_eq_some_iff.mp h
  obtain ⟨name, c, between, value, hline, hname, hc, -, -, hs, -⟩ :=
    scanConvar_eq_some_iff.mp hscan
  have htake : line.take s = name := by
    rw [hs, hline, Nat.zero_add, take_left]
  rw [htake] at hconvar ⊢
  have hclean' : CleanLine name := hclean.of_isInfix ⟨[], _, hline.symm⟩
  rw [trim_eq_self (trimmed_of_forall hname), cStr_eq_self hclean'.noEnd] at hconvar
  refine ⟨?_, hname, hclean', hconvar⟩
  -- a line that starts with a space has not been trimmed
  rintro rfl
  have hhead := htrim.head c (by rw [hline]; rfl)
  rw [hc] at hhead
  cases hhead

theorem toggleName_of_toggle? {name : Str} (h : toggle? line = some (plus, name)) :
    ToggleName name := by
  cases line with
  | nil => cases h
  | cons sign rest =>
    rw [toggle?] at h
    split at h
    · next hmatch =>
      cases h
      exact ⟨hmatch.2.1, all_eq_true.mp hmatch.2.2⟩
    · cases h

/-- A block whose lines are read back as what they were. -/
structure PrintableBlock (env : TextEnv F) (block : FrameBlock F) : Prop where
  convars : ∀ name ∈ block.convars.values.map Prod.fst, ConvarName env name
  toggles : ∀ name ∈ block.toggles.values.map Prod.fst, ToggleName name
  commands : ∀ line ∈ block.commands, CommandLine env line

theorem forall_key_put {ν : Type} {P : Str → Prop} {m : OrderedMap Str ν} {k : Str} (v : ν)
    (hm : ∀ k ∈ m.values.map Prod.fst, P k) (hk : P k) :
    ∀ k' ∈ (m.put k v).values.map Prod.fst, P k' := by
  intro k' hk'
  have hkeys : (m.put k v).values.map Prod.fst = _ := keys_assocPut k v m.values
  rw [hkeys] at hk'
  split at hk'
  · exact hm k' hk'
  · rcases mem_append.mp hk' with hk' | hk'
    · exact hm k' hk'
    · rw [mem_singleton.mp hk']
      exact hk

/-! ## What a line does -/

namespace FrameBlock

/-- What a line that is not a frame number adds to a block. -/
def addLine (env : TextEnv F) (self : FrameBlock F) (line : Str) : FrameBlock F :=
  if isWhitespace line then self
  else
    match convarIndices? env line with
    | some (spaceIndex, startIndex) => self.parseConvar env line spaceIndex startIndex
    | none =>
      match toggle? line with
      | some (plus, cmd) => self.parseToggle plus cmd
      | none => self.addCommand line

theorem parseLine_eq (self : FrameBlock F) (line : Str) (runningFrame : Int) :
    self.parseLine env line runningFrame =
      match frameNumber? line with
      | some (plus, digits) => self.parseFrameNo plus digits runningFrame
      | none => .ok (self.addLine env line, runningFrame) := by
  unfold parseLine addLine
  cases hframe : frameNumber? line with
  | some m =>
    rw [isWhitespace_of_frameNumber? hframe]
    rfl
  | none =>
    cases isWhitespace line with
    | true => rfl
    | false =>
      cases convarIndices? env line with
      | some indices => rfl
      | none =>
        cases toggle? line with
        | some m => rfl
        | none => rfl

theorem addLine_frame (self : FrameBlock F) (line : Str) :
    (self.addLine env line).frame = self.frame ∧
      (self.addLine env line).parsed = self.parsed := by
  unfold addLine
  split
  · exact ⟨rfl, rfl⟩
  · split
    · exact ⟨rfl, rfl⟩
    · split
      · exact ⟨rfl, rfl⟩
      · exact ⟨rfl, rfl⟩

theorem printableBlock_addLine {self : FrameBlock F} {line : Str} (h : PrintableBlock env self)
    (hclean : CleanLine line) (htrim : Trimmed isSpaceByte line)
    (hframe : frameNumber? line = none) : PrintableBlock env (self.addLine env line) := by
  unfold addLine
  split
  · exact h
  · next hblank =>
    split
    · next s t hconvar =>
      exact ⟨forall_key_put _ h.convars (convarName_take hclean htrim hconvar), h.toggles,
        h.commands⟩
    · next hconvar =>
      split
      · next plus name htoggle =>
        exact ⟨h.convars, forall_key_put _ h.toggles (toggleName_of_toggle? htoggle), h.commands⟩
      · next htoggle =>
        refine ⟨h.convars, h.toggles, fun cmd hcmd => ?_⟩
        rcases mem_append.mp hcmd with hcmd | hcmd
        · exact h.commands cmd hcmd
        · rw [mem_singleton.mp hcmd]
          exact ⟨hclean, htrim, by simpa using hblank, hframe, hconvar, htoggle⟩

end FrameBlock

namespace Loader

/-- The block that a frame number is written to: the text before the first frame number
belongs to the first block. -/
def fresh (self : Loader F) : FrameBlock F := if self.fb.parsed then self.fb.reset else self.fb

variable {self : Loader F} {rawLine : Str}

theorem parse_frameNumber {digits : Str} {plus : Bool}
    (h : frameNumber? (parseNewline rawLine) = some (plus, digits))
    (hfit : ofDecimal digits ≤ 2147483647) :
    self.parse env rawLine = .ok
      { fb := { self.fresh with
          frame := ofDecimal digits + (if plus then self.runningFrame else 0), parsed := true }
        runningFrame := ofDecimal digits + (if plus then self.runningFrame else 0)
        lineNumber := self.lineNumber + 1
        blocks := self.finish } := by
  have hframe : isFrameNumber (parseNewline rawLine) = true := by
    unfold isFrameNumber
    rw [h]
    rfl
  unfold parse finish fresh
  simp only [hframe, Bool.true_and, parseLine_eq, h, parseFrameNo, stoi, if_pos hfit]
  cases self.fb.parsed <;> rfl

theorem le_of_parse_frameNumber {self' : Loader F} {digits : Str} {plus : Bool}
    (h : frameNumber? (parseNewline rawLine) = some (plus, digits))
    (hok : self.parse env rawLine = .ok self') : ofDecimal digits ≤ 2147483647 := by
  by_contra hfit
  unfold parse at hok
  simp only [parseLine_eq, h] at hok
  unfold parseFrameNo stoi at hok
  rw [if_neg hfit] at hok
  cases hok

theorem parse_content (h : frameNumber? (parseNewline rawLine) = none) :
    self.parse env rawLine = .ok
      { self with
        fb := self.fb.addLine env (parseNewline rawLine), lineNumber := self.lineNumber + 1 } := by
  have hframe : isFrameNumber (parseNewline rawLine) = false := by
    unfold isFrameNumber
    rw [h]
    rfl
  unfold parse
  simp only [hframe, Bool.false_and, parseLine_eq, h]
  rfl

end Loader

/-! ## What the loop preserves -/

/-- The frames of a list of blocks, with the frame 0 before them. -/
def frameTrail (blocks : List (FrameBlock F)) : List Int := 0 :: blocks.map frame

/-- The next frame is not further away than the largest `int`. -/
def Near (frame frame' : Int) : Prop := frame' - frame ≤ 2147483647

/-- A script that the parser has produced. -/
structure Accepted (env : TextEnv F) (blocks : List (FrameBlock F)) : Prop where
  printable : ∀ b ∈ blocks, PrintableBlock env b
  parsed : ∀ b ∈ blocks, b.parsed = true
  nonneg : ∀ f ∈ frameTrail blocks, 0 ≤ f
  near : (frameTrail blocks).IsChain Near

/-- What holds before every line. -/
structure Image (env : TextEnv F) (st : Loader F) : Prop where
  fb : PrintableBlock env st.fb
  accepted : Accepted env st.finish
  running : (frameTrail st.finish).getLast? = some st.runningFrame

theorem printableBlock_blank (frame : Int) (parsed : Bool) :
    PrintableBlock env ({ frame := frame, parsed := parsed } : FrameBlock F) :=
  ⟨fun _ h => absurd h not_mem_nil, fun _ h => absurd h not_mem_nil,
    fun _ h => absurd h not_mem_nil⟩

theorem image_init : Image env ({} : Loader F) := by
  refine ⟨printableBlock_blank 0 false, ⟨?_, ?_, ?_, List.IsChain.singleton 0⟩, rfl⟩
  · exact fun b hb => absurd hb not_mem_nil
  · exact fun b hb => absurd hb not_mem_nil
  · intro f hf
    rw [mem_singleton.mp hf]

theorem frameTrail_concat (blocks : List (FrameBlock F)) (b : FrameBlock F) :
    frameTrail (blocks ++ [b]) = frameTrail blocks ++ [b.frame] := by
  unfold frameTrail
  rw [map_append, map_singleton, cons_append]

namespace Image

variable {st : Loader F}

section

variable (h : Image env st)
include h

theorem fresh : PrintableBlock env st.fresh := by
  unfold Loader.fresh
  split
  · exact printableBlock_blank _ _
  · exact h.fb

theorem concat {b : FrameBlock F} (hb : PrintableBlock env b)
    (hparsed : b.parsed = true) (hnonneg : 0 ≤ b.frame) (hnear : Near st.runningFrame b.frame) :
    Accepted env (st.finish ++ [b]) := by
  refine ⟨?_, ?_, ?_, ?_⟩
  · intro b' hb'
    rcases mem_append.mp hb' with hb' | hb'
    · exact h.accepted.printable b' hb'
    · rw [mem_singleton.mp hb']
      exact hb
  · intro b' hb'
    rcases mem_append.mp hb' with hb' | hb'
    · exact h.accepted.parsed b' hb'
    · rw [mem_singleton.mp hb']
      exact hparsed
  · intro f hf
    rw [frameTrail_concat] at hf
    rcases mem_append.mp hf with hf | hf
    · exact h.accepted.nonneg f hf
    · rw [mem_singleton.mp hf]
      exact hnonneg
  · rw [frameTrail_concat]
    refine isChain_append.mpr ⟨h.accepted.near, List.IsChain.singleton _, ?_⟩
    intro f hf f' hf'
    rw [Option.mem_def, h.running] at hf
    cases hf
    cases hf'
    exact hnear

theorem runningFrame_nonneg : 0 ≤ st.runningFrame :=
  h.accepted.nonneg _ (mem_of_mem_getLast? h.running)

theorem frameNumber (n : ℕ) (hn : n ≤ 2147483647) (plus : Bool) (lineNumber : ℕ) :
    Image env
      { fb := { st.fresh with
          frame := n + (if plus then st.runningFrame else 0), parsed := true }
        runningFrame := n + (if plus then st.runningFrame else 0)
        lineNumber := lineNumber
        blocks := st.finish } := by
  have hrunning := h.runningFrame_nonneg
  have hfresh := h.fresh
  have hb : PrintableBlock env { st.fresh with
      frame := n + (if plus then st.runningFrame else 0), parsed := true } :=
    ⟨hfresh.convars, hfresh.toggles, hfresh.commands⟩
  refine ⟨hb, h.concat hb rfl ?_ ?_, ?_⟩
  · show 0 ≤ (n : Int) + (if plus then st.runningFrame else 0)
    split <;> omega
  · show (n : Int) + (if plus then st.runningFrame else 0) - st.runningFrame ≤ 2147483647
    split <;> omega
  · show (frameTrail (st.finish ++ [_])).getLast? = _
    rw [frameTrail_concat, List.getLast?_concat]

theorem content {fb : FrameBlock F} (hfb : PrintableBlock env fb)
    (hframe : fb.frame = st.fb.frame) (hparsed : fb.parsed = st.fb.parsed) (lineNumber : ℕ) :
    Image env { st with fb := fb, lineNumber := lineNumber } := by
  have hfinish : ∀ b ∈ finish { st with fb := fb, lineNumber := lineNumber },
      b ∈ st.finish ∨ b = fb ∧ st.fb.parsed = true := by
    intro b hb
    unfold finish at hb ⊢
    simp only [hparsed] at hb
    split at hb
    · next hp =>
      rw [if_pos hp]
      rcases mem_append.mp hb with hb | hb
      · exact .inl (mem_append_left _ hb)
      · exact .inr ⟨mem_singleton.mp hb, hp⟩
    · next hp =>
      rw [if_neg hp]
      exact .inl hb
  have htrail : frameTrail (finish { st with fb := fb, lineNumber := lineNumber }) =
      frameTrail st.finish := by
    unfold finish
    simp only [hparsed]
    split
    · rw [frameTrail_concat, frameTrail_concat, hframe]
    · rfl
  refine ⟨hfb, ⟨?_, ?_, htrail ▸ h.accepted.nonneg, htrail ▸ h.accepted.near⟩,
    htrail ▸ h.running⟩
  · intro b hb
    rcases hfinish b hb with hb | ⟨rfl, -⟩
    · exact h.accepted.printable b hb
    · exact hfb
  · intro b hb
    rcases hfinish b hb with hb | ⟨rfl, hp⟩
    · exact h.accepted.parsed b hb
    · rw [hparsed, hp]

theorem parse {st' : Loader F} {rawLine : Str}
    (hraw : ∀ c ∈ rawLine, isLineEnd c = false) (hok : st.parse env rawLine = .ok st') :
    Image env st' := by
  cases hframe : frameNumber? (parseNewline rawLine) with
  | some m =>
    obtain ⟨plus, digits⟩ := m
    have hfit := le_of_parse_frameNumber hframe hok
    rw [parse_frameNumber hframe hfit] at hok
    cases hok
    exact h.frameNumber _ hfit plus _
  | none =>
    rw [parse_content hframe] at hok
    cases hok
    have hkept : (st.fb.addLine env (parseNewline rawLine)).frame = st.fb.frame ∧
        (st.fb.addLine env (parseNewline rawLine)).parsed = st.fb.parsed := st.fb.addLine_frame _
    exact h.content (printableBlock_addLine h.fb (cleanLine_parseNewline hraw)
      (trimmed_parseNewline rawLine) hframe) hkept.1 hkept.2 _

theorem loop (fuel : ℕ) (reader : BufferReader) (hok : (loop env fuel reader st).rval = true) :
    Accepted env (loop env fuel reader st).blocks := by
  induction fuel generalizing reader st with
  | zero => exact h.accepted
  | succ fuel ih =>
    rw [loop] at hok ⊢
    split
    · next hread =>
      rw [if_pos hread] at hok
      simp only at hok ⊢
      cases hparse : st.parse env reader.getLine.1 with
      | ok st' =>
        rw [hparse] at hok
        exact ih (h.parse reader.isLineEnd_of_mem_getLine hparse) _ hok
      | error e =>
        rw [hparse] at hok
        cases hok
    · exact h.accepted

end

end Image

namespace TASScript

/-- **The image of the parser.** -/
theorem accepted_of_loadFromString {input : Str}
    (h : (loadFromString env [] input).rval = true) :
    Accepted env (loadFromString env [] input).blocks :=
  image_init.loop _ _ h

end TASScript

end TASQuake
