import TASQuake.Analysis.FileIo
import TASQuake.Analysis.ScriptImage
import TASQuake.Model.TestScript

/-!
# Test scripts that have been written cannot be read

`Write_To_Stream` writes five digits for the filter of a block, and the regular expression of
the reader wants four digits and then a tab.
-/

namespace TASQuake

open Lib Io TestBlock List

namespace TestBlock

theorem length_filterText (filter : UInt32) : (filterText filter).length = 5 := rfl

variable {c : UInt8}

theorem eq_of_mem_filterText {filter : UInt32} (h : c ∈ filterText filter) : c = 48 ∨ c = 49 := by
  obtain ⟨i, -, rfl⟩ := mem_map.mp h
  split
  · exact .inr rfl
  · exact .inl rfl

/-- The line of a block from the hook count on, without the tab and the command. -/
def countText (self : TestBlock) : Str :=
  decimalInt self.hookCount ++ 9 :: filterText self.afterframesFilter

variable (self : TestBlock)

theorem writeToStream_eq :
    self.writeToStream = hookText self.hook ++ 9 :: (self.countText ++ (9 :: self.command ++ [10])) := by
  have htab : str "\t" = [9] := by decide
  have hnewline : str "\n" = [10] := by decide
  unfold writeToStream countText
  simp [htab, hnewline]

theorem exists_countText :
    ∃ c rest, self.countText = c :: rest ∧ (isDigitByte c = true ∨ c = 45) := by
  unfold countText decimalInt
  split
  · exact ⟨45, _, rfl, .inr rfl⟩
  · obtain ⟨c, rest, hc⟩ := exists_cons_of_ne_nil (decimal_ne_nil self.hookCount.natAbs)
    refine ⟨c, rest ++ 9 :: filterText self.afterframesFilter, by rw [hc, cons_append], .inl ?_⟩
    exact isDigitByte_of_mem_decimal (hc ▸ mem_cons_self)

theorem behind_countText (rest : Str)
    (hdigits : (self.countText ++ rest).takeWhile isDigitByte ≠ []) :
    ((self.countText ++ rest).dropWhile isDigitByte)[5]? ≠ some 9 := by
  unfold countText decimalInt at hdigits ⊢
  split at hdigits
  · -- a sign is not a digit
    exact absurd (takeWhile_cons_of_neg (by decide)) hdigits
  · next hcount =>
    rw [if_neg hcount, append_assoc,
      dropWhile_append_of_pos fun c hc => isDigitByte_of_mem_decimal hc, cons_append,
      dropWhile_cons_of_neg (by decide), getElem?_cons_succ,
      getElem?_append_left (by rw [length_filterText]; decide)]
    intro h
    rcases eq_of_mem_filterText (mem_of_getElem? h) with h | h
    · exact absurd h (by decide)
    · exact absurd h (by decide)

/-- A line is rejected that starts with a tab, a digit or a sign, and one with a hook count and
five digits behind the first tab. -/
theorem ofLine_of_not_groups {line : Str}
    (h : (line.headD 0 ≠ 102 ∧ line.headD 0 ≠ 108 ∧ line.headD 0 ≠ 115) ∨
      ((line.drop 2).takeWhile isDigitByte ≠ [] →
        ((line.drop 2).dropWhile isDigitByte)[5]? ≠ some 9)) :
    ofLine line = .error (str "Unable to read all required variables from line.") := by
  have hnone : lineGroups? line = none := by
    unfold lineGroups?
    rw [if_neg]
    rintro ⟨hhook, -, hdigits, -, -, -, htab, -⟩
    rcases h with ⟨hf, hl, hs⟩ | h
    · rcases hhook with hhook | hhook | hhook
      · exact hf hhook
      · exact hl hhook
      · exact hs hhook
    · exact h hdigits htab
  unfold ofLine
  rw [hnone]

theorem head_countText (rest : Str) :
    (self.countText ++ rest).headD 0 ≠ 102 ∧ (self.countText ++ rest).headD 0 ≠ 108 ∧
      (self.countText ++ rest).headD 0 ≠ 115 := by
  obtain ⟨c, behind, hcount, hc⟩ := self.exists_countText
  rw [hcount, cons_append, headD_cons]
  refine ⟨?_, ?_, ?_⟩ <;> rintro rfl <;> revert hc <;> decide

/-- The line of a block without the last tab and the command. -/
def leadText (self : TestBlock) : Str := hookText self.hook ++ 9 :: self.countText

theorem ofLine_leadText (rest : Str) :
    ofLine (self.leadText ++ rest) =
      .error (str "Unable to read all required variables from line.") := by
  have htab : (9 : UInt8) ≠ 102 ∧ (9 : UInt8) ≠ 108 ∧ (9 : UInt8) ≠ 115 := by decide
  unfold leadText
  cases hhook : self.hook with
  | frame => exact ofLine_of_not_groups (.inr (self.behind_countText rest))
  | levelChange => exact ofLine_of_not_groups (.inr (self.behind_countText rest))
  | scriptCompleted => exact ofLine_of_not_groups (.inl htab)

theorem ofLine_countText (rest : Str) :
    ofLine (self.countText ++ rest) =
      .error (str "Unable to read all required variables from line.") :=
  ofLine_of_not_groups (.inl (self.head_countText rest))

theorem ofLine_writeToStream {self : TestBlock} {line : Str}
    (h : self.writeToStream = line ++ str "\n") :
    ofLine line = .error (str "Unable to read all required variables from line.") := by
  have hline : line ++ [10] = (self.leadText ++ 9 :: self.command) ++ [10] := by
    have hnewline : str "\n" = [10] := by decide
    rw [← hnewline, ← h, writeToStream_eq, hnewline]
    simp [leadText]
  rw [append_cancel_right hline]
  exact self.ofLine_leadText _

/-! ## Lines in a file -/

theorem of_mem_countText {self : TestBlock} (h : c ∈ self.countText) :
    isDigitByte c = true ∨ c = 45 ∨ c = 9 := by
  have hdecimal : ∀ n : ℕ, c ∈ decimal n → isDigitByte c = true := fun n =>
    isDigitByte_of_mem_decimal
  unfold countText decimalInt at h
  rcases mem_append.mp h with h | h
  · split at h
    · rcases mem_cons.mp h with rfl | h
      · exact .inr (.inl rfl)
      · exact .inl (hdecimal _ h)
    · exact .inl (hdecimal _ h)
  · rcases mem_cons.mp h with rfl | h
    · exact .inr (.inr rfl)
    · rcases eq_of_mem_filterText h with rfl | rfl
      · exact .inl (by decide)
      · exact .inl (by decide)

theorem notMem_leadText (hhook : ∀ hook, c ∉ hookText hook) (hdigit : isDigitByte c = false)
    (hc : c ≠ 45 ∧ c ≠ 9) : c ∉ self.leadText := by
  unfold leadText
  intro h
  rcases mem_append.mp h with h | h
  · exact hhook _ h
  rcases mem_cons.mp h with h | h
  · exact hc.2 h
  rcases of_mem_countText h with h | h | h
  · exact Bool.false_ne_true (hdigit.symm.trans h)
  · exact hc.1 h
  · exact hc.2 h

theorem last_countText (lead : Str) :
    ∀ c ∈ (lead ++ self.countText).getLast?, isSpaceByte c = false := by
  intro c hc
  have hne : filterText self.afterframesFilter ≠ [] := cons_ne_nil _ _
  unfold countText at hc
  rw [← append_assoc, append_cons, getLast?_append_of_ne_nil _ hne] at hc
  rcases eq_of_mem_filterText (mem_of_mem_getLast? hc) with rfl | rfl
  · decide
  · decide

theorem parseNewline_leadText (rest : Str) :
    (∃ rest', parseNewline (self.leadText ++ rest) = self.leadText ++ rest') ∨
      ∃ rest', parseNewline (self.leadText ++ rest) = self.countText ++ rest' := by
  have hslash : 47 ∉ self.leadText := by
    refine self.notMem_leadText (fun hook => ?_) (by decide) (by decide)
    cases hook <;> decide
  have hlast : ∀ c ∈ self.leadText.getLast?, isSpaceByte c = false := by
    unfold leadText
    rw [append_cons]
    exact self.last_countText _
  unfold parseNewline trim
  rw [cutAt_append hslash, rdropWhile_append_of_last hlast]
  generalize (cutAt 47 rest).rdropWhile isSpaceByte = rest'
  unfold leadText
  cases hhook : self.hook with
  | frame => exact .inl ⟨rest', dropWhile_cons_of_neg (by decide)⟩
  | levelChange => exact .inl ⟨rest', dropWhile_cons_of_neg (by decide)⟩
  | scriptCompleted =>
    -- the tab in front of a line without a letter is trimmed
    obtain ⟨c, behind, hcount, hc⟩ := self.exists_countText
    refine .inr ⟨rest', (dropWhile_cons_of_pos (by decide)).trans ?_⟩
    rw [hcount, cons_append]
    refine dropWhile_cons_of_neg ?_
    rcases hc with hc | rfl
    · rw [(plainByte_of_isDigitByte hc).1]
      exact Bool.false_ne_true
    · decide

theorem isWhitespace_countText (lead rest : Str) :
    isWhitespace (lead ++ (self.countText ++ rest)) = false := by
  obtain ⟨c, behind, hcount, hc⟩ := self.exists_countText
  have hspace : isSpaceByte c = false := by
    rcases hc with hc | rfl
    · exact (plainByte_of_isDigitByte hc).1
    · decide
  unfold isWhitespace
  rw [hcount, all_append, cons_append, all_cons, hspace]
  simp

theorem rejected_leadText (rest : Str) :
    isWhitespace (parseNewline (self.leadText ++ rest)) = false ∧
      ofLine (parseNewline (self.leadText ++ rest)) =
        .error (str "Unable to read all required variables from line.") := by
  rcases self.parseNewline_leadText rest with ⟨rest', h⟩ | ⟨rest', h⟩
  · rw [h]
    refine ⟨?_, self.ofLine_leadText rest'⟩
    unfold leadText
    rw [append_cons, append_assoc]
    exact self.isWhitespace_countText _ rest'
  · rw [h]
    exact ⟨self.isWhitespace_countText [] rest', self.ofLine_countText rest'⟩

end TestBlock

namespace TestScript

theorem lineNumber_of_parseTestLine {s s' : TestScript × ℕ} {line : Str}
    (h : parseTestLine s line = .ok s') : s'.2 = s.2 + 1 := by
  obtain ⟨test, lineNumber⟩ := s
  dsimp only [parseTestLine] at h
  split at h
  · cases h
    rfl
  split at h
  · cases h
    rfl
  split at h
  · cases h
    rfl
  · cases h

theorem foldlM_of_rejected {line : Str} (hspace : isWhitespace (parseNewline line) = false)
    {what : Str} (hrejected : ofLine (parseNewline line) = .error what)
    (before after : List Str) (s : TestScript × ℕ) (hs : before ≠ [] ∨ s.2 ≠ 0) :
    ∃ e, (before ++ line :: after).foldlM parseTestLine s = .error e := by
  induction before generalizing s with
  | nil =>
    obtain ⟨test, lineNumber⟩ := s
    have hlineNumber : lineNumber ≠ 0 := hs.resolve_left fun h => h rfl
    refine ⟨((test, lineNumber), what), ?_⟩
    rw [nil_append, foldlM_cons]
    unfold parseTestLine
    simp only [if_neg hlineNumber, hspace, hrejected]
    rfl
  | cons first before ih =>
    rw [cons_append, foldlM_cons]
    cases hfirst : parseTestLine s first with
    | error e => exact ⟨e, rfl⟩
    | ok s' =>
      refine ih s' (.inr ?_)
      rw [lineNumber_of_parseTestLine hfirst]
      exact Nat.succ_ne_zero _

/-- The file written for a test with a block is rejected, whatever the description, the blocks
and the test that loads it. -/
theorem rval_loadFromFile (self loader : TestScript) {content : Str}
    (h : self.writeToFile = some content) : (loader.loadFromFile (some content)).rval = false := by
  unfold writeToFile at h
  split at h
  · cases h
  next hblocks =>
  cases h
  obtain ⟨block, blocks, hcons⟩ := exists_cons_of_ne_nil hblocks
  have hnewline : 10 ∉ block.leadText := by
    refine block.notMem_leadText (fun hook => ?_) (by decide) (by decide)
    cases hook <;> decide
  have hlines : ∃ line lines, (self.description ++ str "\n" ++
      self.blocks.flatMap writeToStream).splitOn 10 =
        self.description.splitOn 10 ++ (block.leadText ++ line) :: lines := by
    obtain ⟨line, lines, -, hlines⟩ := exists_splitOn_append hnewline
      (9 :: block.command ++ [10] ++ blocks.flatMap writeToStream)
    refine ⟨line, lines, ?_⟩
    have hstr : str "\n" = [10] := by decide
    rw [← hlines, hcons, flatMap_cons, writeToStream_eq, hstr, append_assoc,
      singleton_append, splitOn_append_cons_self]
    simp [leadText]
  obtain ⟨line, lines, hlines⟩ := hlines
  obtain ⟨hspace, hrejected⟩ := block.rejected_leadText line
  obtain ⟨e, he⟩ := foldlM_of_rejected hspace hrejected (self.description.splitOn 10) lines
    (loader, 0) (.inl (splitOn_ne_nil _ _))
  simp only [loadFromFile, forLinesOf_eq_foldlM, hlines, he]

end TestScript

/-- No line that `Write_To_Stream` writes for a block is parsed, and no test with a block is
loaded from the file that `Write_To_File` has written for it. -/
theorem written_tests_are_rejected (block : TestBlock) (test loader : TestScript) :
    (∀ line : Str, block.writeToStream = line ++ str "\n" →
      ofLine line =
        .error (str "Unable to read all required variables from line.")) ∧
    (test.blocks ≠ [] →
      ∃ content, test.writeToFile = some content ∧
        (loader.loadFromFile (some content)).rval = false) := by
  refine ⟨fun line h => ofLine_writeToStream h, fun hblocks => ?_⟩
  have hcontent : test.writeToFile = some _ := if_neg hblocks
  exact ⟨_, hcontent, test.rval_loadFromFile loader hcontent⟩

/-- A test that waits for the second level change and then ends the demo. -/
def stopTest : TestScript where
  fileName := str "e1m1"
  description := str "run through e1m1"
  blocks := [{ hook := .levelChange, hookCount := 2, afterframesFilter := 2, command := str "stop" }]

theorem written_tests_are_rejected_stopTest :
    ∃ content, stopTest.writeToFile = some content ∧
      (stopTest.loadFromFile (some content)).rval = false :=
  (written_tests_are_rejected
    { hook := .levelChange, hookCount := 2, afterframesFilter := 2, command := str "stop" }
    stopTest stopTest).2 (by decide)

theorem stopTest_is_not_read_back :
    stopTest.writeToFile = some (str "run through e1m1\nl\t2\t01100\tstop\n") ∧
      ofLine (str "l\t2\t01100\tstop") =
        .error (str "Unable to read all required variables from line.") ∧
      TestScript.loadFromFile { fileName := str "e1m1" }
          (some (str "run through e1m1\nl\t2\t01100\tstop\n")) =
        ⟨false, { fileName := str "e1m1", description := str "run through e1m1" },
          str "Error parsing line 1: Unable to read all required variables from line.\n"⟩ := by
  refine ⟨?_, ?_, ?_⟩
  · decide +kernel
  · decide +kernel
  · decide +kernel

end TASQuake
