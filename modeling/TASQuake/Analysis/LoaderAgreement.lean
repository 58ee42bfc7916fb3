import TASQuake.Analysis.BufferIo
import TASQuake.Analysis.FileIo
import TASQuake.Model.ScriptText

/-!
# Loading from a file and from memory

`FileReadInterface` yields every piece between two newlines, `BufferReadInterface` skips the empty
ones and may end one byte behind the buffer.  An empty line changes nothing but the line number, so
that both lead to what the pieces between the newlines lead to.
-/

namespace TASQuake.Analysis.LoaderAgreement

open Io TASScript Lib BufferReader Loader List

variable {F : Type} (env : TextEnv F)

/-! ## Lines that the loader does not notice -/

/-- What the loop of `_Load_From_File` has come to: its result and the blocks. -/
def outcome : Except (Loader F × Str) (Loader F) → Bool × List (FrameBlock F)
  | .ok st => (true, st.finish)
  | .error (st, _) => (false, st.blocks)

/-- The outcome of a loop over the pieces between the newlines. -/
def linesOutcome (content : Str) (st : Loader F) : Bool × List (FrameBlock F) :=
  outcome ((content.splitOn 10).foldlM (parse env) st)

theorem parse_lineNumber (st : Loader F) (n : ℕ) (line : Str) :
    (∃ st', st.parse env line = .ok st' ∧
        ({ st with lineNumber := n } : Loader F).parse env line =
          .ok { st' with lineNumber := n + 1 }) ∨
      ∃ st' what, st.parse env line = .error (st', what) ∧
        ({ st with lineNumber := n } : Loader F).parse env line =
          .error ({ st' with lineNumber := n + 1 }, what) := by
  by_cases hpush : (isFrameNumber (parseNewline line) && st.fb.parsed) = true
  · unfold parse
    simp only [hpush, if_true]
    cases st.fb.reset.parseLine env (parseNewline line) st.runningFrame with
    | ok r => exact Or.inl ⟨_, rfl, rfl⟩
    | error what => exact Or.inr ⟨_, _, rfl, rfl⟩
  · unfold parse
    simp only [hpush, Bool.false_eq_true, if_false]
    cases st.fb.parseLine env (parseNewline line) st.runningFrame with
    | ok r => exact Or.inl ⟨_, rfl, rfl⟩
    | error what => exact Or.inr ⟨_, _, rfl, rfl⟩

theorem outcome_foldlM_lineNumber (lines : List Str) (st : Loader F) (n : ℕ) :
    outcome (lines.foldlM (parse env) { st with lineNumber := n }) =
      outcome (lines.foldlM (parse env) st) := by
  induction lines generalizing st n with
  | nil => rfl
  | cons line lines ih =>
    rw [foldlM_cons, foldlM_cons]
    rcases parse_lineNumber env st n line with ⟨st', hst, hn⟩ | ⟨st', what, hst, hn⟩
    · rw [hst, hn]
      exact ih st' (n + 1)
    · rw [hst, hn]
      rfl

theorem parse_nil (st : Loader F) :
    st.parse env [] = .ok { st with lineNumber := st.lineNumber + 1 } := by
  unfold parse
  rfl

theorem outcome_foldlM_nil_cons (lines : List Str) (st : Loader F) :
    outcome (([] :: lines).foldlM (parse env) st) =
      outcome (lines.foldlM (parse env) st) := by
  rw [foldlM_cons, parse_nil]
  exact outcome_foldlM_lineNumber env lines st _

theorem linesOutcome_nil (st : Loader F) : linesOutcome env [] st = (true, st.finish) :=
  outcome_foldlM_nil_cons env [] st

theorem linesOutcome_newline_cons (rest : Str) (st : Loader F) :
    linesOutcome env (10 :: rest) st = linesOutcome env rest st := by
  have hsplit : (10 :: rest).splitOn 10 = [] :: rest.splitOn 10 :=
    splitOn_append_cons_self_of_not_mem not_mem_nil rest
  unfold linesOutcome
  rw [hsplit, outcome_foldlM_nil_cons]

/-- The outcome from a line on that has been read; `rest` has not. -/
def stepOutcome (line rest : Str) (st : Loader F) : Bool × List (FrameBlock F) :=
  outcome (st.parse env line >>= (rest.splitOn 10).foldlM (parse env))

theorem linesOutcome_append_cons {line : Str} (hline : 10 ∉ line) (rest : Str) (st : Loader F) :
    linesOutcome env (line ++ 10 :: rest) st = stepOutcome env line rest st := by
  unfold linesOutcome stepOutcome
  rw [splitOn_append_cons_self_of_not_mem hline, foldlM_cons]

theorem linesOutcome_of_notMem {line : Str} (hline : 10 ∉ line) (st : Loader F) :
    linesOutcome env line st = stepOutcome env line [] st := by
  unfold linesOutcome stepOutcome
  rw [splitOn_eq_singleton hline, foldlM_cons]
  cases st.parse env line with
  | ok st' => exact (linesOutcome_nil env st').symm
  | error e => rfl

/-! ## The buffer -/

theorem remaining_advance (reader : BufferReader) (k : ℕ) :
    ({ reader with offset := reader.offset + k } : BufferReader).remaining =
      reader.remaining.drop k := by
  unfold remaining
  by_cases hle : reader.offset + k ≤ reader.size
  · have hsplit : reader.size - reader.offset = k + (reader.size - (reader.offset + k)) := by omega
    rw [hsplit, drop_slice]
  · have hempty : reader.size - (reader.offset + k) = 0 := by omega
    have hshort : (slice reader.buffer reader.offset (reader.size - reader.offset)).length ≤ k := by
      unfold slice
      rw [length_take]
      omega
    rw [hempty, drop_eq_nil_of_le hshort]
    exact take_zero

theorem remaining_of_not_lt {reader : BufferReader} (h : ¬ reader.offset < reader.size) :
    reader.remaining = [] := by
  have hempty : reader.size - reader.offset = 0 := by omega
  unfold remaining
  rw [hempty]
  exact take_zero

theorem takeWhile_isLineEnd {content : Str} (hnul : 0 ∉ content) :
    (10 ∉ content ∧ content.takeWhile (fun c => !isLineEnd c) = content) ∨
      ∃ rest, 10 ∉ content.takeWhile (fun c => !isLineEnd c) ∧
        content = content.takeWhile (fun c => !isLineEnd c) ++ 10 :: rest := by
  by_cases hmem : 10 ∈ content
  · obtain ⟨line, rest, rfl, hline⟩ := eq_append_cons_of_mem hmem
    have hkeep : ∀ c ∈ line, (!isLineEnd c) = true := by
      intro c hc
      have hzero : c ≠ 0 := fun h => hnul (h ▸ mem_append_left _ hc)
      have hten : c ≠ 10 := ne_of_mem_of_not_mem hc hline
      simp [isLineEnd, hzero, hten]
    have htake : (line ++ 10 :: rest).takeWhile (fun c => !isLineEnd c) = line := by
      rw [takeWhile_append_of_pos hkeep, takeWhile_cons_of_neg (by decide), append_nil]
    rw [htake]
    exact Or.inr ⟨rest, hline, rfl⟩
  · refine Or.inl ⟨hmem, takeWhile_eq_self_iff.mpr fun c hc => ?_⟩
    have hzero : c ≠ 0 := fun h => hnul (h ▸ hc)
    have hten : c ≠ 10 := ne_of_mem_of_not_mem hc hmem
    simp [isLineEnd, hzero, hten]

/-- `GetLine` goes over empty lines to the next line, and both have the same outcome.  What is left
is a part of what there was. -/
theorem getLineLoop_outcome (fuel : ℕ) (reader : BufferReader)
    (hfuel : reader.size - reader.offset ≤ fuel) (hnul : 0 ∉ reader.remaining) (st : Loader F) :
    linesOutcome env reader.remaining st =
        stepOutcome env (getLineLoop fuel reader).1
          (getLineLoop fuel reader).2.remaining st ∧
      0 ∉ (getLineLoop fuel reader).2.remaining := by
  induction fuel generalizing reader with
  | zero =>
    have hnil := remaining_of_not_lt (show ¬ reader.offset < reader.size by omega)
    rw [getLineLoop, hnil]
    exact ⟨linesOutcome_of_notMem env not_mem_nil st, not_mem_nil⟩
  | succ fuel ih =>
    by_cases hlt : reader.offset < reader.size
    · rw [getLineLoop, if_pos hlt]
      simp only [Nat.add_assoc]
      rcases takeWhile_isLineEnd hnul with ⟨hten, hall⟩ | ⟨rest, hline, hsplit⟩
      · -- the last line, which is not ended
        rw [hall]
        by_cases hempty : reader.remaining.isEmpty = true
        · rw [if_pos hempty]
          have hnil := isEmpty_iff.mp hempty
          have hstep := ih { reader with offset := reader.offset + (reader.remaining.length + 1) }
            (by show reader.size - (reader.offset + _) ≤ fuel; omega)
            (by rw [remaining_advance, hnil]; exact not_mem_nil)
          rw [remaining_advance, hnil] at hstep
          rw [hnil]
          exact hstep
        · rw [if_neg hempty]
          show linesOutcome env reader.remaining st = stepOutcome env reader.remaining
            ({ reader with offset := _ } : BufferReader).remaining st ∧ _ ∉
              ({ reader with offset := _ } : BufferReader).remaining
          rw [remaining_advance, drop_eq_nil_of_le (Nat.le_succ _)]
          exact ⟨linesOutcome_of_notMem env hten st, not_mem_nil⟩
      · generalize reader.remaining.takeWhile (fun c => !isLineEnd c) = line at hline hsplit
        have hrest : ({ reader with offset := reader.offset + (line.length + 1) } :
            BufferReader).remaining = rest := by
          rw [remaining_advance, hsplit, ← drop_drop, drop_left]
          rfl
        have hnulRest : 0 ∉ rest := by
          intro hmem
          rw [hsplit] at hnul
          exact hnul (mem_append_right _ (mem_cons_of_mem _ hmem))
        by_cases hempty : line.isEmpty = true
        · rw [if_pos hempty, hsplit, isEmpty_iff.mp hempty, nil_append, linesOutcome_newline_cons]
          have hline := isEmpty_iff.mp hempty
          subst hline
          have hstep := ih _ (by show reader.size - (reader.offset + _) ≤ fuel; omega)
            (hrest ▸ hnulRest)
          rw [hrest] at hstep
          exact hstep
        · rw [if_neg hempty]
          rw [hrest, hsplit]
          exact ⟨linesOutcome_append_cons env hline rest st, hnulRest⟩
    · rw [getLineLoop, if_neg hlt, remaining_of_not_lt hlt]
      exact ⟨linesOutcome_of_notMem env not_mem_nil st, not_mem_nil⟩

theorem loop_outcome (fuel : ℕ) (reader : BufferReader)
    (hfuel : reader.size - reader.offset ≤ fuel) (hnul : 0 ∉ reader.remaining) (st : Loader F) :
    ((loop env fuel reader st).rval, (loop env fuel reader st).blocks) =
      linesOutcome env reader.remaining st := by
  induction fuel generalizing reader st with
  | zero =>
    rw [remaining_of_not_lt (show ¬ reader.offset < reader.size by omega), linesOutcome_nil]
    rfl
  | succ fuel ih =>
    rw [loop]
    by_cases hread : reader.canRead = true
    · have hline := getLineLoop_outcome env (reader.size - reader.offset) reader (Nat.le_refl _)
        hnul st
      have hprogress := getLine_progress hread
      have hget : reader.getLine =
          getLineLoop (reader.size - reader.offset) reader := by
        unfold getLine
        rw [hread]
        rfl
      rw [if_pos hread, hline.1]
      rw [← hget] at hline ⊢
      unfold stepOutcome
      simp only
      cases st.parse env reader.getLine.1 with
      | ok st' => exact ih reader.getLine.2 (by omega) hline.2 st'
      | error e => rfl
    · have hlt : ¬ reader.offset < reader.size := fun hlt => hread (decide_eq_true hlt)
      rw [if_neg hread, remaining_of_not_lt hlt, linesOutcome_nil]

theorem loadFromReader_outcome (blocks : List (FrameBlock F)) {content : Str}
    (hnul : 0 ∉ content) :
    let loaded := loadFromReader env blocks { buffer := content, size := content.length }
    (loaded.rval, loaded.blocks) = linesOutcome env content { blocks := blocks } := by
  have hall : ({ buffer := content, size := content.length } : BufferReader).remaining =
      content := take_of_length_le (Nat.le_refl _)
  have hloop := loop_outcome env content.length { buffer := content, size := content.length }
    (Nat.sub_le _ _) (by rw [hall]; exact hnul) { blocks := blocks }
  rw [hall] at hloop
  exact hloop

theorem loadFromFile_outcome (blocks : List (FrameBlock F)) (content : Str) :
    ((loadFromFile env blocks content).rval, (loadFromFile env blocks content).blocks) =
      linesOutcome env content { blocks := blocks } := by
  unfold loadFromFile linesOutcome
  rw [forLinesOf_eq_foldlM]
  cases (content.splitOn 10).foldlM (parse env) { blocks := blocks } with
  | ok st => rfl
  | error e => rfl

/-! ## Agreement -/

/-- **Loading from a file and from memory agree** on the result and on the blocks, those in front of
a line that fails included. -/
theorem load_from_file_eq_from_buffer (blocks : List (FrameBlock F)) (content : Str)
    (hnul : 0 ∉ content) :
    let file := loadFromFile env blocks content
    let buffer := loadFromReader env blocks { buffer := content, size := content.length }
    file.rval = buffer.rval ∧ file.blocks = buffer.blocks := by
  have heq := (loadFromFile_outcome env blocks content).trans
    (loadFromReader_outcome env blocks hnul).symm
  exact Prod.mk.inj heq

/-- A frame with a toggle, an empty line, and a number that is too large. -/
theorem load_from_file_eq_from_buffer_failing :
    let env : TextEnv Unit := ⟨fun _ => false, fun _ => [], fun _ => ()⟩
    let content := str "1:\r\n\n+a\n2:\n99999999999:"
    let buffer := loadFromReader env [] { buffer := content, size := content.length }
    buffer.rval = false ∧ buffer.blocks.map FrameBlock.frame = [1, 2] := by
  intro env content buffer
  have heq := load_from_file_eq_from_buffer env [] content (by decide)
  have hfile : (loadFromFile env [] content).rval = false ∧
      (loadFromFile env [] content).blocks.map FrameBlock.frame = [1, 2] := by decide +kernel
  exact ⟨heq.1.symm.trans hfile.1, heq.2 ▸ hfile.2⟩

end TASQuake.Analysis.LoaderAgreement
