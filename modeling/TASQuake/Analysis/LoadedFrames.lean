import TASQuake.Analysis.LoaderAgreement
import TASQuake.Analysis.ScriptImage

/-!
# The frames of a loaded script

Every frame header of a text makes a block.  A header with a plus counts from the frame of the
header before it, one without names its frame itself and may go back; the sum may also leave the
range of an `int`, which is not checked either.
-/

namespace TASQuake.Analysis.LoadedFrames

open Io TASScript Lib FrameBlock Loader List
open LoaderAgreement (linesOutcome outcome loop_outcome)

variable {F : Type} (env : TextEnv F)

/-! ## Headers -/

/-- The frame headers among lines: whether there is a plus, and the digits. -/
def headers (lines : List Str) : List (Bool × Str) :=
  lines.filterMap fun line => frameNumber? (parseNewline line)

/-- The number of a header is that of an `int`. -/
def NumberFits (header : Bool × Str) : Prop := ofDecimal header.2 ≤ 2147483647

/-- The frame that a header stands for. -/
def frameOf (running : Int) (header : Bool × Str) : Int :=
  ofDecimal header.2 + (if header.1 then running else 0)

/-- The frames that headers stand for. -/
def headerFrames : Int → List (Bool × Str) → List Int
  | _, [] => []
  | running, header :: rest => frameOf running header :: headerFrames (frameOf running header) rest

theorem headers_cons_of_some {line : Str} {header : Bool × Str}
    (h : frameNumber? (parseNewline line) = some header) (lines : List Str) :
    headers (line :: lines) = header :: headers lines := filterMap_cons_some h

theorem headers_cons_of_none {line : Str} (h : frameNumber? (parseNewline line) = none)
    (lines : List Str) : headers (line :: lines) = headers lines := filterMap_cons_none h

/-! ## The loop -/

theorem frames_finish_content (st : Loader F) (line : Str) (lineNumber : ℕ) :
    (finish { st with fb := st.fb.addLine env line, lineNumber := lineNumber }).map
      frame = st.finish.map frame := by
  obtain ⟨hframe, hparsed⟩ : (st.fb.addLine env line).frame = st.fb.frame ∧
      (st.fb.addLine env line).parsed = st.fb.parsed := addLine_frame st.fb line
  unfold finish
  simp only [hparsed]
  split
  · rw [map_append, map_append, map_singleton, map_singleton, hframe]
  · rfl

theorem foldlM_parse_frames (lines : List Str) (st : Loader F) :
    (∃ st', lines.foldlM (parse env) st = .ok st' ∧ (∀ h ∈ headers lines, NumberFits h) ∧
        st'.finish.map frame =
          st.finish.map frame ++ headerFrames st.runningFrame (headers lines)) ∨
      ∃ e, lines.foldlM (parse env) st = .error e ∧ ∃ h ∈ headers lines, ¬ NumberFits h := by
  induction lines generalizing st with
  | nil => exact Or.inl ⟨st, rfl, fun h hh => absurd hh not_mem_nil, (append_nil _).symm⟩
  | cons line lines ih =>
    rw [foldlM_cons]
    cases hheader : frameNumber? (parseNewline line) with
    | none =>
      rw [parse_content hheader, headers_cons_of_none hheader]
      rcases ih { st with
          fb := st.fb.addLine env (parseNewline line), lineNumber := st.lineNumber + 1 } with
        ⟨st', hfold, hfits, hframes⟩ | herror
      · rw [frames_finish_content] at hframes
        exact Or.inl ⟨st', hfold, hfits, hframes⟩
      · exact Or.inr herror
    | some header =>
      rw [headers_cons_of_some hheader]
      by_cases hfit : NumberFits header
      · rw [parse_frameNumber hheader hfit]
        rcases ih _ with ⟨st', hfold, hfits, hframes⟩ | ⟨e, hfold, h, hmem, hbig⟩
        · refine Or.inl ⟨st', hfold, forall_mem_cons.mpr ⟨hfit, hfits⟩, ?_⟩
          rw [hframes]
          show (st.finish ++ [_]).map frame ++ _ = _
          rw [map_append, append_assoc]
          rfl
        · exact Or.inr ⟨e, hfold, h, mem_cons_of_mem _ hmem, hbig⟩
      · cases hparse : st.parse env line with
        | ok st' => exact absurd (le_of_parse_frameNumber hheader hparse) hfit
        | error e => exact Or.inr ⟨e, rfl, header, mem_cons_self, hfit⟩

/-- The part of a C string that `Load_From_String` reads: its length is kept in 32 bits. -/
def readPart (input : Str) : Str := (cStr input).take ((cStr input).length % 2 ^ 32)

/-- The frame headers of a text. -/
def headersOf (input : Str) : List (Bool × Str) := headers ((readPart input).splitOn 10)

/-- `Load_From_String` returns true if all numbers fit, and then there is a block for every
header. -/
theorem loadFromString_frames (input : Str) :
    ((loadFromString env [] (cStr input)).rval = true ↔ ∀ h ∈ headersOf input, NumberFits h) ∧
      ((loadFromString env [] (cStr input)).rval = true →
        (loadFromString env [] (cStr input)).blocks.map frame =
          headerFrames 0 (headersOf input)) := by
  have hnul : 0 ∉ readPart input := by
    intro hmem
    have hzero := mem_takeWhile_imp (mem_of_mem_take hmem)
    simp at hzero
  have houtcome : ((loadFromString env [] (cStr input)).rval,
      (loadFromString env [] (cStr input)).blocks) = linesOutcome env (readPart input) {} :=
    loop_outcome env _ { buffer := cStr input, size := (cStr input).length % 2 ^ 32 }
      (Nat.le_refl _) hnul {}
  unfold linesOutcome at houtcome
  rcases foldlM_parse_frames env ((readPart input).splitOn 10) {} with
    ⟨st, hfold, hfits, hframes⟩ | ⟨e, hfold, h, hmem, hbig⟩
  · rw [hfold] at houtcome
    obtain ⟨hrval, hblocks⟩ := Prod.mk.inj houtcome
    rw [hrval, hblocks]
    exact ⟨⟨fun _ => hfits, fun _ => rfl⟩, fun _ => hframes⟩
  · rw [hfold] at houtcome
    obtain ⟨hrval, -⟩ := Prod.mk.inj houtcome
    rw [hrval]
    exact ⟨⟨fun hfalse => absurd hfalse (by decide), fun hall => absurd (hall h hmem) hbig⟩,
      fun hfalse => absurd hfalse (by decide)⟩

/-! ## Order -/

/-- The differences that `_Write_To_File` writes. (script_parse.cpp:351-353) -/
def writtenDiffs : Int → List Int → List Int
  | _, [] => []
  | current, frame :: rest => (frame - current) :: writtenDiffs frame rest

/-- A script as the other components expect it. -/
structure WellOrdered (blocks : List (FrameBlock F)) : Prop where
  nonneg : ∀ b ∈ blocks, 0 ≤ b.frame
  sorted : (blocks.map frame).Pairwise (· ≤ ·)
  noOverflow : ∀ b ∈ blocks, b.frame ≤ 2147483647
  diffs : ∀ d ∈ writtenDiffs 0 (blocks.map frame), 0 ≤ d

/-- From a running frame on, no header without a plus goes back, and no header with a plus leaves
the range of an `int`. -/
def InOrder : Int → List (Bool × Str) → Prop
  | _, [] => True
  | running, (true, digits) :: rest =>
    running + ofDecimal digits ≤ 2147483647 ∧ InOrder (running + ofDecimal digits) rest
  | running, (false, digits) :: rest => running ≤ ofDecimal digits ∧ InOrder (ofDecimal digits) rest

theorem diffs_nonneg_iff (current : Int) (frames : List Int) :
    (∀ d ∈ writtenDiffs current frames, 0 ≤ d) ↔ (current :: frames).IsChain (· ≤ ·) := by
  induction frames generalizing current with
  | nil => simp [writtenDiffs]
  | cons frame rest ih =>
    rw [writtenDiffs, forall_mem_cons, ih, isChain_cons_cons]
    have hdiff : 0 ≤ frame - current ↔ current ≤ frame := by omega
    rw [hdiff]

theorem wellOrdered_iff (blocks : List (FrameBlock F)) :
    WellOrdered blocks ↔ (0 :: blocks.map frame).IsChain (· ≤ ·) ∧
      ∀ f ∈ blocks.map frame, f ≤ 2147483647 := by
  constructor
  · intro h
    exact ⟨(diffs_nonneg_iff 0 _).mp h.diffs, forall_mem_map.mpr h.noOverflow⟩
  · rintro ⟨hchain, hmax⟩
    have hpairwise := pairwise_cons.mp hchain.pairwise
    exact ⟨fun b hb => hpairwise.1 b.frame (mem_map_of_mem hb), hpairwise.2,
      fun b hb => hmax b.frame (mem_map_of_mem hb), (diffs_nonneg_iff 0 _).mpr hchain⟩

theorem inOrder_iff {running : Int} {hs : List (Bool × Str)} (hfits : ∀ h ∈ hs, NumberFits h) :
    InOrder running hs ↔ (running :: headerFrames running hs).IsChain (· ≤ ·) ∧
      ∀ f ∈ headerFrames running hs, f ≤ 2147483647 := by
  induction hs generalizing running with
  | nil => simp [InOrder, headerFrames]
  | cons header rest ih =>
    obtain ⟨hfit, hrest⟩ := forall_mem_cons.mp hfits
    obtain ⟨plus, digits⟩ := header
    have hfit' : ofDecimal digits ≤ 2147483647 := hfit
    rw [headerFrames, isChain_cons_cons, forall_mem_cons]
    cases plus with
    | true =>
      have hframe : frameOf running (true, digits) = running + ofDecimal digits :=
        Int.add_comm _ _
      rw [hframe, InOrder, ih hrest]
      have hforward : running ≤ running + ofDecimal digits := by omega
      tauto
    | false =>
      have hframe : frameOf running (false, digits) = ofDecimal digits := Int.add_zero _
      have hmax : (ofDecimal digits : Int) ≤ 2147483647 := by omega
      rw [hframe, InOrder, ih hrest]
      tauto

/-- **The loader accepts a script that is not well ordered exactly if a header without a plus goes
back or a sum leaves the range of an `int`.** -/
theorem loaded_scripts_ordered_iff (input : Str) :
    ((loadFromString env [] (cStr input)).rval = true →
        WellOrdered (loadFromString env [] (cStr input)).blocks) ↔
      ((∀ h ∈ headersOf input, NumberFits h) → InOrder 0 (headersOf input)) := by
  obtain ⟨hrval, hframes⟩ := loadFromString_frames env input
  constructor
  · intro hordered hfits
    have hloaded := hrval.mpr hfits
    have hblocks := (wellOrdered_iff _).mp (hordered hloaded)
    rw [hframes hloaded] at hblocks
    exact (inOrder_iff hfits).mpr hblocks
  · intro horder hloaded
    have hfits := hrval.mp hloaded
    rw [wellOrdered_iff, hframes hloaded]
    exact (inOrder_iff hfits).mp (horder hfits)

/-- Frame 3 behind frame 5, and a sum that is no `int`: both texts load. -/
theorem disordered_texts_load :
    let env : TextEnv Unit := ⟨fun _ => false, fun _ => [], fun _ => ()⟩
    let back := loadFromString env [] (str "5:\n3:\n")
    let overflow := loadFromString env [] (str "2147483647:\n+1:\n")
    (back.rval = true ∧ back.blocks.map frame = [5, 3] ∧
        (TASScript.text env 0 back.blocks) = [str "+5:\n", str "+-2:\n"]) ∧
      (overflow.rval = true ∧
        overflow.blocks.map frame = [2147483647, 2147483648]) := by
  decide +kernel

end TASQuake.Analysis.LoadedFrames
