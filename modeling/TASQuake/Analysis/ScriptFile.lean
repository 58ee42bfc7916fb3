import TASQuake.Analysis.FileIo
import TASQuake.Analysis.ScriptRoundTrip

/-!
# A script written to a file is read back if its lines are short

Of a line that does not fit into 1024 bytes, `FileWriteInterface::Write` writes the first 1023 and a
null character, and no newline, so that the next line is lost.

A line gives a script at most one entry (`weight`), and a line that has been cut anywhere but at the
end of the file takes a newline away (`length_nonblank_lt`).  If the last line has been cut, a
toggle or a command is read as another command, and a convar has another value, unless only the
newline is missing (`addLine_cutLine`).
-/

namespace TASQuake

open Lib Io FrameBlock Loader List

variable {F : Type} {env : TextEnv F} {finite : F → Prop}

/-! ## Counting entries -/

/-- The number of lines that a block is written with, if it has a frame. -/
def FrameBlock.weight (self : FrameBlock F) : ℕ :=
  (if self.parsed then 1 else 0) + self.convars.values.length + self.toggles.values.length +
    self.commands.length

/-- The number of entries that have been read. -/
def Loader.weight (self : Loader F) : ℕ :=
  (self.blocks.map FrameBlock.weight).sum + self.fb.weight

theorem length_values_put_le {ν : Type} (m : OrderedMap Str ν) (k : Str) (v : ν) :
    (m.put k v).values.length ≤ m.values.length + 1 := by
  have hkeys := congrArg length (keys_assocPut k v m.values)
  rw [length_map] at hkeys
  show (assocPut k v m.values).length ≤ _
  rw [hkeys]
  split <;> simp

theorem FrameBlock.weight_addLine_le (self : FrameBlock F) (line : Str) :
    (self.addLine env line).weight ≤ self.weight + 1 := by
  unfold addLine
  split
  · omega
  · split
    · next s t _ =>
      have hput := length_values_put_le self.convars (line.take s)
        (env.fromChars (TASScript.cStr (line.drop t)))
      unfold weight parseConvar
      dsimp only
      omega
    · split
      · next plus name _ =>
        have hput := length_values_put_le self.toggles name plus
        unfold weight parseToggle
        dsimp only
        omega
      · unfold weight addCommand
        simp only [length_append, length_singleton]
        omega

namespace Loader

variable {st st' : Loader F}

theorem weight_parse_le {rawLine : Str} (h : st.parse env rawLine = .ok st') :
    st'.weight ≤ st.weight + 1 := by
  cases hframe : frameNumber? (parseNewline rawLine) with
  | some m =>
    obtain ⟨plus, digits⟩ := m
    rw [parse_frameNumber hframe (le_of_parse_frameNumber hframe h)] at h
    cases h
    unfold weight finish fresh
    cases hparsed : st.fb.parsed with
    | true =>
      -- the block is pushed and the new one has a frame only
      rw [if_pos rfl, if_pos rfl, map_append, sum_append, map_singleton, sum_singleton]
      exact Nat.le_refl _
    | false =>
      rw [if_neg Bool.false_ne_true, if_neg Bool.false_ne_true]
      unfold FrameBlock.weight
      rw [hparsed, if_neg Bool.false_ne_true, if_pos rfl]
      dsimp only
      omega
  | none =>
    rw [parse_content hframe] at h
    cases h
    have hadd : (st.fb.addLine env (parseNewline rawLine)).weight ≤ st.fb.weight + 1 :=
      st.fb.weight_addLine_le _
    unfold weight
    dsimp only
    omega

theorem weight_parse_nil (h : st.parse env [] = .ok st') : st'.weight = st.weight := by
  have hframe : frameNumber? (parseNewline []) = none := by decide
  rw [parse_content hframe] at h
  cases h
  rfl

/-- The lines that are not empty. -/
def nonblank (lines : List Str) : List Str := lines.filter fun line => !line.isEmpty

theorem length_nonblank_cons {line : Str} (h : line ≠ []) (lines : List Str) :
    (nonblank (line :: lines)).length = (nonblank lines).length + 1 := by
  unfold nonblank
  rw [filter_cons_of_pos (by simpa using h), length_cons]

theorem weight_foldlM_le {lines : List Str} (h : lines.foldlM (parse env) st = .ok st') :
    st'.weight ≤ st.weight + (nonblank lines).length := by
  induction lines generalizing st with
  | nil =>
    cases h
    exact Nat.le_add_right _ _
  | cons line lines ih =>
    rw [foldlM_cons] at h
    cases hline : st.parse env line with
    | error e =>
      rw [hline] at h
      cases h
    | ok st₁ =>
      rw [hline] at h
      have hrest := ih h
      cases line with
      | nil =>
        rw [weight_parse_nil hline] at hrest
        exact hrest
      | cons c line =>
        have hone := weight_parse_le hline
        rw [length_nonblank_cons (cons_ne_nil c line)]
        omega

theorem weight_finish_le (st : Loader F) : (st.finish.map FrameBlock.weight).sum ≤ st.weight := by
  unfold finish weight
  split
  · rw [map_append, sum_append, map_singleton, sum_singleton]
  · exact Nat.le_add_right _ _

end Loader

/-! ## Counting lines -/

/-- The bytes that are written for a line. -/
def filePiece (line : Str) : Str := linePiece (line ++ [10])

variable {line : Str}

theorem filePiece_of_short (h : line.length + 1 < lineBufferSize) :
    filePiece line = line ++ [10] := by
  unfold filePiece linePiece
  rw [if_pos (by rwa [length_append, length_singleton])]

theorem filePiece_of_long (h : lineBufferSize ≤ line.length + 1) :
    filePiece line = line.take (lineBufferSize - 1) ++ [0] := by
  unfold filePiece linePiece
  rw [if_neg (by rw [length_append, length_singleton]; omega), take_append_of_le_length (by omega)]

theorem exists_filePiece (h : line ≠ []) (hend : 10 ∉ line) :
    ∃ c rest, filePiece line = c :: rest ∧ c ≠ 10 := by
  obtain ⟨c, line, rfl⟩ := exists_cons_of_ne_nil h
  have hc : c ≠ 10 := fun hc => hend (hc ▸ mem_cons_self)
  by_cases hshort : (c :: line).length + 1 < lineBufferSize
  · exact ⟨c, line ++ [10], by rw [filePiece_of_short hshort, cons_append], hc⟩
  · refine ⟨c, line.take (lineBufferSize - 2) ++ [0], ?_, hc⟩
    rw [filePiece_of_long (Nat.not_lt.mp hshort)]
    rfl

/-- No lines are read that have not been written, and a line is lost behind one that has been
cut. -/
theorem length_nonblank_le {lines : List Str} (h : ∀ line ∈ lines, line ≠ [] ∧ 10 ∉ line) :
    (nonblank ((lines.map filePiece).flatten.splitOn 10)).length ≤ lines.length ∧
      ((∃ line ∈ lines.dropLast, lineBufferSize ≤ line.length + 1) →
        (nonblank ((lines.map filePiece).flatten.splitOn 10)).length < lines.length) := by
  induction lines with
  | nil => exact ⟨Nat.le_refl _, fun ⟨_, hmem, _⟩ => absurd hmem not_mem_nil⟩
  | cons line lines ih =>
    obtain ⟨hne, hend⟩ := h line mem_cons_self
    have hlines : ∀ l ∈ lines, l ≠ [] ∧ 10 ∉ l := fun l hl => h l (mem_cons_of_mem _ hl)
    obtain ⟨hle, hlt⟩ := ih hlines
    rw [map_cons, flatten_cons, length_cons]
    set rest := (lines.map filePiece).flatten
    by_cases hshort : line.length + 1 < lineBufferSize
    · have hsplit : (filePiece line ++ rest).splitOn 10 = line :: rest.splitOn 10 := by
        rw [filePiece_of_short hshort, append_assoc, singleton_append,
          splitOn_append_cons_self_of_not_mem hend]
      rw [hsplit, length_nonblank_cons hne]
      refine ⟨by omega, fun ⟨long, hlong, hlength⟩ => ?_⟩
      cases lines with
      | nil => exact absurd hlong not_mem_nil
      | cons line₂ lines =>
        rw [dropLast_cons_cons] at hlong
        rcases mem_cons.mp hlong with rfl | hlong
        · omega
        · have := hlt ⟨long, hlong, hlength⟩
          omega
    · -- the first piece of the rest belongs to the line that has been cut
      have hpiece : 10 ∉ filePiece line := by
        rw [filePiece_of_long (Nat.not_lt.mp hshort)]
        intro hmem
        rcases mem_append.mp hmem with hmem | hmem
        · exact hend (mem_of_mem_take hmem)
        · exact absurd hmem (by decide)
      obtain ⟨first, others, hrest, hsplit⟩ := exists_splitOn_append hpiece rest
      have hnonempty : filePiece line ++ first ≠ [] := by
        obtain ⟨c, cs, hc, -⟩ := exists_filePiece hne hend
        rw [hc]
        exact cons_ne_nil _ _
      rw [hsplit, length_nonblank_cons hnonempty]
      cases lines with
      | nil =>
        have hothers : others = [] := by
          have hnil : rest.splitOn 10 = [[]] := rfl
          rw [hnil] at hrest
          exact (cons.inj hrest).2.symm
        rw [hothers]
        exact ⟨Nat.le_refl _, fun ⟨_, hmem, _⟩ => absurd hmem not_mem_nil⟩
      | cons line₂ lines =>
        have hfirst : first ≠ [] := by
          obtain ⟨hne₂, hend₂⟩ := hlines line₂ mem_cons_self
          obtain ⟨c, cs, hc, hc10⟩ := exists_filePiece hne₂ hend₂
          have hlead : 10 ∉ [c] := fun hmem => hc10 (mem_singleton.mp hmem).symm
          obtain ⟨l, ls, -, hl⟩ := exists_splitOn_append hlead (cs ++ (lines.map filePiece).flatten)
          have hsame : rest = [c] ++ (cs ++ (lines.map filePiece).flatten) := by
            show filePiece line₂ ++ (lines.map filePiece).flatten = _
            rw [hc]
            rfl
          rw [hsame, hl] at hrest
          rw [← (cons.inj hrest).1]
          exact cons_ne_nil _ _
        rw [← length_nonblank_cons hfirst, ← hrest]
        exact ⟨by omega, fun _ => by omega⟩

/-! ## A line that has been cut -/

/-- The first `n` bytes of a line and a null character. -/
def cutLine (n : ℕ) (line : Str) : Str := line.take n ++ [0]

theorem zero_mem_cutLine (n : ℕ) (line : Str) : 0 ∈ cutLine n line :=
  mem_append_right _ mem_cons_self

theorem scanConvar_append_zero (line : Str) (startIndex : ℕ) (spaceIndex : Option ℕ) :
    scanConvar (line ++ [0]) startIndex spaceIndex = scanConvar line startIndex spaceIndex := by
  induction line generalizing startIndex spaceIndex with
  | nil => cases spaceIndex <;> rfl
  | cons c line ih =>
    cases spaceIndex with
    | none =>
      rw [cons_append, scanConvar, scanConvar, ih, ih]
    | some spaceIndex =>
      rw [cons_append, scanConvar, scanConvar, ih]

theorem scanConvar_append {startIndex s t : ℕ} (h : scanConvar line startIndex none = some (s, t))
    (rest : Str) :
    scanConvar (line ++ rest) startIndex none = some (s, t) ∧ t < startIndex + line.length := by
  obtain ⟨name, space, between, value, rfl, hname, hspace, hbetween, ⟨c, hc, hstart⟩, rfl, rfl⟩ :=
    scanConvar_eq_some_iff.mp h
  cases value with
  | nil => cases hc
  | cons c' value =>
    constructor
    · refine scanConvar_eq_some_iff.mpr ⟨name, space, between, c' :: value ++ rest, ?_, hname, hspace,
        hbetween, ⟨c, hc, hstart⟩, rfl, rfl⟩
      rw [append_assoc, cons_append, append_assoc]
    · rw [length_append, length_cons, length_append, length_cons]
      omega

theorem convarIndices?_of_cutLine {n s t : ℕ}
    (h : convarIndices? env (cutLine n line) = some (s, t)) :
    convarIndices? env line = some (s, t) ∧ t < n := by
  unfold convarIndices? cutLine at h
  obtain ⟨hscan, hconvar⟩ := Option.filter_eq_some_iff.mp h
  rw [scanConvar_append_zero] at hscan
  obtain ⟨name, c, between, value, htake, -, -, -, -, hs, -⟩ := scanConvar_eq_some_iff.mp hscan
  have hscan' := scanConvar_append hscan (line.drop n)
  rw [take_append_drop, length_take] at hscan'
  refine ⟨?_, by omega⟩
  unfold convarIndices?
  refine Option.filter_eq_some_iff.mpr ⟨hscan'.1, ?_⟩
  have hname : (line.take n ++ [0]).take s = line.take s := by
    have hle : s ≤ (line.take n).length := by
      rw [htake, hs, length_append]
      omega
    rw [take_append_of_le_length hle, take_take]
    rw [length_take] at hle
    rw [Nat.min_eq_left (by omega)]
  rwa [← hname]

theorem FrameBlock.addLine_of_zero_mem (h : 0 ∈ line) (fb : FrameBlock F) :
    fb.addLine env line =
      match convarIndices? env line with
      | some (spaceIndex, startIndex) => fb.parseConvar env line spaceIndex startIndex
      | none => fb.addCommand line := by
  have hblank := TASScript.isWhitespace_eq_false h (by decide)
  have htoggle : toggle? line = none := by
    rw [Option.eq_none_iff_forall_ne_some]
    rintro ⟨plus, name⟩ hsome
    cases line with
    | nil => cases hsome
    | cons sign rest =>
      rw [toggle?] at hsome
      split at hsome
      · next hmatch =>
        rcases mem_cons.mp h with rfl | hmem
        · exact absurd hmatch.1 (by decide)
        · exact absurd (all_eq_true.mp hmatch.2.2 0 hmem) (by decide)
      · cases hsome
  unfold addLine
  rw [hblank, htoggle]
  rfl

/-- `std::to_chars` prints the shortest text that converts to the value; a beginning of it
converts to another one, if it converts at all. -/
structure TextEnv.Shortest (env : TextEnv F) (finite : F → Prop) : Prop where
  fromChars_take : ∀ v, finite v → ∀ k, 0 < k → k < (env.toChars v).length →
    env.fromChars ((env.toChars v).take k) ≠ v

namespace TASScript

variable {name : Str}

theorem addLine_cutLine_convarLine (henv : env.RoundTrips finite) (hname : ConvarName env name)
    {v : F} (hv : finite v) (n : ℕ) (fb : FrameBlock F) :
    fb.addLine env (cutLine n (convarLine env (name, v))) =
      if name.length + 1 < n then
        { fb with
          convars := fb.convars.put name
            (env.fromChars ((env.toChars v).take (n - (name.length + 1)))) }
      else fb.addCommand (cutLine n (convarLine env (name, v))) := by
  rw [addLine_of_zero_mem (zero_mem_cutLine n _)]
  by_cases hn : name.length + 1 < n
  · rw [if_pos hn]
    obtain ⟨k, rfl⟩ : ∃ k, n = name.length + 1 + (k + 1) := ⟨n - (name.length + 2), by omega⟩
    have hk : name.length + 1 + (k + 1) - (name.length + 1) = k + 1 := by omega
    have hcut : cutLine (name.length + 1 + (k + 1)) (convarLine env (name, v)) =
        name ++ 32 :: ((env.toChars v).take (k + 1) ++ [0]) := by
      unfold cutLine convarLine
      have hlen : name.length + 1 + (k + 1) = name.length + (k + 2) := by omega
      rw [hlen, take_length_add_append, take_succ_cons, append_assoc]
      rfl
    have hindices : convarIndices? env (cutLine (name.length + 1 + (k + 1))
        (convarLine env (name, v))) = some (name.length, name.length + 1) := by
      obtain ⟨c, rest, hchars, hc⟩ := henv.toChars_head v hv
      unfold convarIndices?
      refine Option.filter_eq_some_iff.mpr ⟨?_, ?_⟩
      · rw [hcut, scanConvar_skip hname.noSpace, scanConvar, if_pos (by decide), hchars,
          take_succ_cons, cons_append, scanConvar, if_pos hc, Nat.zero_add]
      · rw [hcut, take_left, trim_eq_self (trimmed_of_forall hname.noSpace),
          cStr_eq_self hname.clean.noEnd]
        exact hname.isConvar
    have hvalue : cStr ((env.toChars v).take (k + 1) ++ [0]) = (env.toChars v).take (k + 1) := by
      have hplain : ∀ c ∈ (env.toChars v).take (k + 1), (c != 0) = true := by
        intro c hc
        have hfloat := henv.toChars_mem v hv c (mem_of_mem_take hc)
        simp only [bne_iff_ne, ne_eq]
        rintro rfl
        exact absurd hfloat (by decide)
      unfold cStr
      rw [takeWhile_append_of_pos hplain, takeWhile_cons_of_neg (by decide), append_nil]
    rw [hindices, hk]
    show fb.parseConvar env _ name.length (name.length + 1) = _
    unfold parseConvar
    rw [hcut, take_left, ← drop_drop, drop_left]
    show { fb with convars := fb.convars.put name (env.fromChars (cStr (_ ++ [0]))) } = _
    rw [hvalue]
  · rw [if_neg hn]
    cases hcut : convarIndices? env (cutLine n (convarLine env (name, v))) with
    | none => rfl
    | some indices =>
      obtain ⟨s, t⟩ := indices
      have hline := convarIndices?_of_cutLine hcut
      rw [convarIndices?_convarLine henv hname hv] at hline
      cases hline.1
      exact absurd hline.2 hn

theorem addCommand_ne (fb fb' : FrameBlock F) (h : fb'.commands = fb.commands) (cmd : Str) :
    fb' ≠ fb.addCommand cmd := by
  intro heq
  have hlen := congrArg (fun b => b.commands.length) heq
  unfold FrameBlock.addCommand at hlen
  simp [h] at hlen

theorem addLine_cutLine_command {cmd : Str} (h : CommandLine env cmd) (n : ℕ)
    (fb : FrameBlock F) : fb.addLine env cmd ≠ fb.addLine env (cutLine n cmd) := by
  have hnone : convarIndices? env (cutLine n cmd) = none := by
    rw [Option.eq_none_iff_forall_ne_some]
    rintro ⟨s, t⟩ hsome
    have hline := (convarIndices?_of_cutLine hsome).1
    rw [h.notConvar] at hline
    cases hline
  rw [addLine_command h, addLine_of_zero_mem (zero_mem_cutLine n cmd), hnone]
  intro heq
  have hcommands : fb.commands ++ [cmd] = fb.commands ++ [cutLine n cmd] :=
    congrArg commands heq
  have hcmd := singleton_inj.mp (append_cancel_left hcommands)
  have hzero := h.clean.noEnd 0 (hcmd ▸ zero_mem_cutLine n cmd)
  exact absurd hzero (by decide)

theorem addLine_cutLine_toggleLine (hname : ToggleName name) (value : Bool) (n : ℕ)
    (fb : FrameBlock F) :
    fb.addLine env (toggleLine (name, value)) ≠
      fb.addLine env (cutLine n (toggleLine (name, value))) := by
  have hnone : convarIndices? env (cutLine n (toggleLine (name, value))) = none := by
    rw [Option.eq_none_iff_forall_ne_some]
    rintro ⟨s, t⟩ hsome
    have hline := (convarIndices?_of_cutLine hsome).1
    rw [convarIndices?_toggleLine hname] at hline
    cases hline
  rw [addLine_toggleLine hname, addLine_of_zero_mem (zero_mem_cutLine n _), hnone]
  refine addCommand_ne fb _ ?_ _
  rfl

theorem length_le_of_addLine_cutLine (henv : env.RoundTrips finite) (hshort : env.Shortest finite)
    (hname : ConvarName env name) {v : F} (hv : finite v) {n : ℕ} {fb : FrameBlock F}
    (h : fb.addLine env (convarLine env (name, v)) = fb.addLine env (cutLine n (convarLine env (name, v)))) :
    (convarLine env (name, v)).length ≤ n := by
  rw [addLine_convarLine henv hname hv, addLine_cutLine_convarLine henv hname hv] at h
  split at h
  · next hn =>
    have hvalue := congrArg (fun b => b.convars.find? name) h
    simp only [OrderedMap.find?_put_self, Option.some.injEq] at hvalue
    by_contra hcut
    simp only [convarLine, length_append, length_cons] at hcut
    exact hshort.fromChars_take v hv _ (by omega) (by omega) hvalue.symm
  · refine absurd h (addCommand_ne fb _ ?_ _)
    rfl

/-! ## The last line -/

variable {content : Str}

theorem parse_cutLine (h : ContentLine content) {n : ℕ} (hn : 0 < n) (st : Loader F) :
    st.parse env (9 :: cutLine n content) = .ok
      { st with fb := st.fb.addLine env (cutLine n content), lineNumber := st.lineNumber + 1 } := by
  have hcomment : NoDouble 47 (cutLine n content) :=
    NoDouble.join (by decide) (h.clean.noComment.of_isInfix (List.take_prefix n content).isInfix)
      List.IsChain.nil
  refine parse_tab (append_ne_nil_of_right_ne_nil _ (cons_ne_nil _ _)) hcomment ⟨?_, ?_⟩
    (frameNumber?_eq_none (zero_mem_cutLine n content) (by decide)) st
  · intro c hc
    obtain ⟨a, rest, rfl⟩ := exists_cons_of_ne_nil h.ne_nil
    obtain ⟨k, rfl⟩ := Nat.exists_eq_succ_of_ne_zero (Nat.ne_of_gt hn)
    cases hc
    exact h.trimmed.head _ rfl
  · intro c hc
    rw [getLast?_concat] at hc
    cases hc
    decide

theorem length_lines (currentFrame : Int) {blocks : List (FrameBlock F)}
    (h : ∀ b ∈ blocks, b.parsed = true) :
    (lines env currentFrame blocks).length = (blocks.map FrameBlock.weight).sum := by
  induction blocks generalizing currentFrame with
  | nil => rfl
  | cons b blocks ih =>
    have hb : (blockLines env currentFrame b).length = b.weight := by
      unfold blockLines contentLines FrameBlock.weight
      rw [if_pos (h b mem_cons_self)]
      simp only [length_cons, length_map, length_append]
      omega
    rw [lines, length_append, hb, ih _ fun b' hb' => h b' (mem_cons_of_mem _ hb'),
      map_cons, sum_cons]

theorem lines_concat (currentFrame : Int) (blocks : List (FrameBlock F)) (b : FrameBlock F) :
    ∃ frame, (currentFrame :: blocks.map FrameBlock.frame).getLast? = some frame ∧
      lines env currentFrame (blocks ++ [b]) =
        lines env currentFrame blocks ++ blockLines env frame b := by
  induction blocks generalizing currentFrame with
  | nil => exact ⟨currentFrame, rfl, append_nil _⟩
  | cons b' blocks ih =>
    obtain ⟨frame, hframe, hlines⟩ := ih b'.frame
    refine ⟨frame, ?_, ?_⟩
    · rw [map_cons, getLast?_cons_cons]
      exact hframe
    · rw [cons_append, lines, hlines, lines, append_assoc]

theorem length_frameLine_lt {diff : Int} (h : 0 ≤ diff) (hle : diff ≤ 2147483647) :
    (frameLine diff).length + 1 < lineBufferSize := by
  have hdecimal : (decimalInt diff).length ≤ 10 := by
    rw [decimalInt_of_nonneg h]
    exact length_decimal_le (by omega)
  unfold frameLine lineBufferSize
  rw [length_cons, length_append, length_singleton]
  omega

theorem last_line {blocks : List (FrameBlock F)} (hacc : Accepted env blocks)
    (hframes : (blocks.map frame).Pairwise (· ≤ ·)) (hne : blocks ≠ []) :
    ∃ init line b, lines env 0 blocks = init ++ [line] ∧ blocks.getLast? = some b ∧
      (line.length + 1 < lineBufferSize ∨
        ∃ content, (contentLines env b).getLast? = some content ∧ line = 9 :: content) := by
  obtain ⟨blocks, b, rfl⟩ := (eq_nil_or_concat' blocks).resolve_left hne
  obtain ⟨frame, hframe, hlines⟩ : ∃ frame, _ ∧ lines env 0 (blocks ++ [b]) = _ :=
    lines_concat 0 blocks b
  rcases eq_nil_or_concat' (contentLines env b) with hnil | ⟨contents, content, hconcat⟩
  · refine ⟨lines env 0 blocks, frameLine (b.frame - frame), b, ?_, getLast?_concat, .inl ?_⟩
    · rw [hlines, blockLines, hnil]
      rfl
    · have hnear : Near frame b.frame := by
        have hchain := hacc.near
        rw [frameTrail_concat] at hchain
        exact (isChain_append.mp hchain).2.2 frame hframe b.frame rfl
      have hle : frame ≤ b.frame := by
        rw [map_append, map_singleton] at hframes
        rcases mem_cons.mp (mem_of_mem_getLast? hframe) with rfl | hmem
        · refine hacc.nonneg b.frame ?_
          rw [frameTrail_concat]
          exact mem_append_right _ mem_cons_self
        · exact (pairwise_append.mp hframes).2.2 frame hmem b.frame mem_cons_self
      unfold Near at hnear
      exact length_frameLine_lt (by omega) hnear
  · refine ⟨lines env 0 blocks ++ frameLine (b.frame - frame) :: contents.map (cons 9),
      9 :: content, b, ?_, getLast?_concat, .inr ⟨content, ?_, rfl⟩⟩
    · rw [hlines, blockLines, hconcat, map_append, map_singleton, append_assoc]
      rfl
    · rw [hconcat, getLast?_concat]

theorem filePiece_tab (h : lineBufferSize ≤ (9 :: content).length + 1) :
    filePiece (9 :: content) = 9 :: cutLine (lineBufferSize - 2) content := by
  rw [filePiece_of_long h]
  rfl

/-! ## Loading -/

theorem loadFromFile_of_foldlM {st : Loader F}
    (h : (content.splitOn 10).foldlM (parse env) {} = .ok st) :
    loadFromFile env [] content = ⟨true, st.finish, []⟩ := by
  unfold loadFromFile
  rw [forLinesOf_eq_foldlM, h]

theorem exists_of_loadFromFile (h : (loadFromFile env [] content).rval = true) :
    ∃ st, (content.splitOn 10).foldlM (parse env) {} = .ok st ∧
      (loadFromFile env [] content).blocks = st.finish := by
  unfold loadFromFile at h ⊢
  rw [forLinesOf_eq_foldlM] at h ⊢
  cases hfold : (content.splitOn 10).foldlM (parse env) { blocks := [] } with
  | ok st => exact ⟨st, rfl, rfl⟩
  | error e =>
    rw [hfold] at h
    cases h

theorem accepted_of_loadFromFile (hnul : 0 ∉ content)
    (h : (loadFromFile env [] content).rval = true) :
    Accepted env (loadFromFile env [] content).blocks := by
  obtain ⟨st, hfold, hblocks⟩ := exists_of_loadFromFile h
  have hclean : ∀ line ∈ content.splitOn 10, ∀ c ∈ line, isLineEnd c = false := by
    intro line hline c hc
    obtain ⟨hmem, hnewline⟩ := of_mem_splitOn hline c hc
    have hzero : c ≠ 0 := fun hzero => hnul (hzero ▸ hmem)
    unfold isLineEnd
    rw [beq_eq_false_iff_ne.mpr hzero, beq_eq_false_iff_ne.mpr hnewline]
    rfl
  have himage : Image env st := by
    generalize content.splitOn 10 = lines at hfold hclean
    have hinit : Image env ({} : Loader F) := image_init
    generalize ({} : Loader F) = st₀ at hfold hinit
    induction lines generalizing st₀ with
    | nil =>
      cases hfold
      exact hinit
    | cons line lines ih =>
      rw [foldlM_cons] at hfold
      cases hline : st₀.parse env line with
      | error e =>
        rw [hline] at hfold
        cases hfold
      | ok st₁ =>
        rw [hline] at hfold
        exact ih (fun l hl => hclean l (mem_cons_of_mem _ hl)) st₁ hfold
          (hinit.parse (hclean line mem_cons_self) hline)
  rw [hblocks]
  exact himage.accepted

/-! ## The round trip -/

/-- The lines of a script fit into the buffer of `FileWriteInterface::Write`: a line with its tab
and its newline has at most 1023 bytes.  The last line may have 1024 if it is that of a convar. -/
structure FitsBuffer (env : TextEnv F) (blocks : List (FrameBlock F)) : Prop where
  init : ∀ t ∈ (text env 0 blocks).dropLast, t.length < lineBufferSize
  last : ∀ t ∈ (text env 0 blocks).getLast?, t.length < lineBufferSize ∨
    t.length = lineBufferSize ∧ ∀ b ∈ blocks.getLast?, b.toggles.values = [] ∧ b.commands = []

/-- What is written of a script to a file is read back. -/
def FileReadBack (env : TextEnv F) (blocks : List (FrameBlock F)) : Prop :=
  ∃ file, writeToFile env blocks = some file ∧ loadFromFile env [] file = ⟨true, blocks, []⟩

section RoundTrip

variable {blocks : List (FrameBlock F)}

theorem writeToFile_eq_some_iff (hacc : Accepted env blocks) {file : Str} :
    writeToFile env blocks = some file ↔
      (∀ line ∈ lines env 0 blocks, line.length + 1 < 2 ^ 31) ∧
        file = ((lines env 0 blocks).map filePiece).flatten := by
  unfold writeToFile
  rw [foldlM_fileWrite_eq_some_iff, text_eq hacc.printable 0, map_map, nil_append]
  refine and_congr ?_ Iff.rfl
  rw [forall_mem_map]
  simp only [length_append, length_singleton]

variable {init : List Str} {line : Str}

theorem splitOn_init (hend : ∀ l ∈ init, 10 ∉ l) (hinit : ∀ l ∈ init, l.length + 1 < lineBufferSize) :
    (((init ++ [line]).map filePiece).flatten).splitOn 10 = init ++ (filePiece line).splitOn 10 := by
  have hmap := map_congr_left fun l hl => filePiece_of_short (hinit l hl)
  rw [map_append, flatten_append, hmap, map_singleton, flatten_singleton, splitOn_lines hend]

variable {content : Str}

theorem splitOn_filePiece_tab (h : lineBufferSize ≤ (9 :: content).length + 1) (hend : 10 ∉ content) :
    (filePiece (9 :: content)).splitOn 10 = [9 :: cutLine (lineBufferSize - 2) content] := by
  rw [filePiece_tab h]
  refine splitOn_eq_singleton fun hmem => ?_
  rcases mem_cons.mp hmem with hmem | hmem
  · exact absurd hmem (by decide)
  rcases mem_append.mp hmem with hmem | hmem
  · exact hend (mem_of_mem_take hmem)
  · exact absurd hmem (by decide)

theorem foldlM_concat_eq_ok {st st' : Loader F}
    (h : (init ++ [line]).foldlM (parse env) st = .ok st') :
    ∃ st₁, init.foldlM (parse env) st = .ok st₁ ∧ st₁.parse env line = .ok st' := by
  rw [foldlM_append] at h
  cases hinit : init.foldlM (parse env) st with
  | error e =>
    rw [hinit] at h
    cases h
  | ok st₁ =>
    rw [hinit] at h
    refine ⟨st₁, rfl, ?_⟩
    have hline : foldlM (parse env) st₁ [line] = .ok st' := h
    rw [foldlM_cons] at hline
    cases hparse : st₁.parse env line with
    | error e =>
      rw [hparse] at hline
      cases hline
    | ok st₂ =>
      rw [hparse] at hline
      exact hline

theorem foldlM_concat_of_eq_ok {st st₁ st' : Loader F}
    (hinit : init.foldlM (parse env) st = .ok st₁) (hline : st₁.parse env line = .ok st') :
    (init ++ [line]).foldlM (parse env) st = .ok st' := by
  rw [foldlM_append, hinit]
  have hlast : foldlM (parse env) st₁ [line] = .ok st' := by
    rw [foldlM_cons, hline]
    rfl
  exact hlast

theorem fitsBuffer_iff (hacc : Accepted env blocks) :
    FitsBuffer env blocks ↔
      (∀ line ∈ (lines env 0 blocks).dropLast, line.length + 1 < lineBufferSize) ∧
        ∀ line ∈ (lines env 0 blocks).getLast?, line.length + 1 < lineBufferSize ∨
          line.length + 1 = lineBufferSize ∧
            ∀ b ∈ blocks.getLast?, b.toggles.values = [] ∧ b.commands = [] := by
  have hiff : FitsBuffer env blocks ↔
      (∀ t ∈ (text env 0 blocks).dropLast, t.length < lineBufferSize) ∧
        ∀ t ∈ (text env 0 blocks).getLast?, t.length < lineBufferSize ∨
          t.length = lineBufferSize ∧
            ∀ b ∈ blocks.getLast?, b.toggles.values = [] ∧ b.commands = [] :=
    ⟨fun h => ⟨h.init, h.last⟩, fun h => ⟨h.1, h.2⟩⟩
  rw [hiff, text_eq hacc.printable 0, ← map_dropLast, getLast?_map]
  simp only [forall_mem_map, length_append, length_singleton, Option.mem_def,
    Option.map_eq_some_iff, forall_exists_index, and_imp, forall_apply_eq_imp_iff₂]

theorem exists_convarLine {b : FrameBlock F} (hlast : (contentLines env b).getLast? = some content)
    (htoggles : b.toggles.values = []) (hcommands : b.commands = []) :
    ∃ cvar ∈ b.convars.values, content = convarLine env cvar := by
  unfold contentLines at hlast
  rw [htoggles, hcommands, map_nil, append_nil, append_nil] at hlast
  obtain ⟨cvar, hcvar, rfl⟩ := mem_map.mp (mem_of_mem_getLast? hlast)
  exact ⟨cvar, hcvar, rfl⟩

section

variable (henv : env.RoundTrips finite)
include henv

theorem addLine_cutLine_length {name : Str}
    (hname : ConvarName env name) {v : F} (hv : finite v) (fb : FrameBlock F) :
    fb.addLine env (cutLine (convarLine env (name, v)).length (convarLine env (name, v))) =
      fb.addLine env (convarLine env (name, v)) := by
  obtain ⟨c, rest, hchars, -⟩ := henv.toChars_head v hv
  have hlength : (convarLine env (name, v)).length = name.length + 1 + (env.toChars v).length := by
    simp only [convarLine, length_append, length_cons]
    omega
  have hpos : 0 < (env.toChars v).length := by
    rw [hchars]
    exact Nat.succ_pos _
  rw [addLine_cutLine_convarLine henv hname hv, hlength, if_pos (by omega),
    Nat.add_sub_cancel_left, take_length, henv.fromChars_toChars v hv,
    addLine_convarLine henv hname hv]

theorem fileReadBack_of_fits (hacc : Accepted env blocks)
    (hframes : (blocks.map frame).Pairwise (· ≤ ·))
    (hfinite : ∀ b ∈ blocks, ∀ cvar ∈ b.convars.values, finite cvar.2)
    (hfits : FitsBuffer env blocks) : FileReadBack env blocks := by
  obtain ⟨hinit, hlast⟩ := (fitsBuffer_iff hacc).mp hfits
  obtain ⟨st, hfold, hfinish⟩ := exists_foldlM_lines henv hacc hframes hfinite
  have hread := readableLine_of_mem henv hacc.printable hfinite 0
  by_cases hne : blocks = []
  · subst hne
    exact ⟨[], rfl, rfl⟩
  obtain ⟨init, line, b, hlines, hb, hcases⟩ := last_line hacc hframes hne
  rw [hlines, dropLast_concat] at hinit
  have hline : line.length + 1 < lineBufferSize ∨ line.length + 1 = lineBufferSize ∧
      b.toggles.values = [] ∧ b.commands = [] := by
    rcases hlast line (by rw [hlines, getLast?_concat]; rfl) with h | ⟨h, hconvar⟩
    · exact .inl h
    · exact .inr ⟨h, hconvar b hb⟩
  have hend : ∀ l ∈ init ++ [line], 10 ∉ l := by
    intro l hl hmem
    rw [← hlines] at hl
    exact absurd ((hread l hl).noEnd 10 hmem) (by decide)
  have hwritten : ∀ l ∈ init ++ [line], l.length + 1 < 2 ^ 31 := by
    intro l hl
    have hsize : lineBufferSize < 2 ^ 31 := by decide
    rcases mem_append.mp hl with hl | hl
    · have := hinit l hl
      omega
    · rw [mem_singleton.mp hl]
      omega
  rw [hlines] at hfold
  refine ⟨_, (writeToFile_eq_some_iff hacc).mpr ⟨by rwa [hlines], rfl⟩, ?_⟩
  have hsplit : (((init ++ [line]).map filePiece).flatten).splitOn 10 =
      init ++ (filePiece line).splitOn 10 :=
    splitOn_init (fun l hl => hend l (mem_append_left _ hl)) hinit
  have hnewline := hend line (mem_append_right _ mem_cons_self)
  rw [hlines, ← hfinish]
  by_cases hshort : line.length + 1 < lineBufferSize
  · -- behind the last newline stands an empty line
    have hempty : (filePiece line).splitOn 10 = [line, []] := by
      rw [filePiece_of_short hshort, splitOn_append_cons_self_of_not_mem hnewline]
      rfl
    have hblank : st.parse env [] = .ok { st with lineNumber := st.lineNumber + 1 } :=
      parse_content (by decide)
    have hfold' : (((init ++ [line]).map filePiece).flatten.splitOn 10).foldlM (parse env) {} =
        .ok { st with lineNumber := st.lineNumber + 1 } := by
      rw [hsplit, hempty, append_cons]
      exact foldlM_concat_of_eq_ok hfold hblank
    exact (loadFromFile_of_foldlM hfold').trans rfl
  · obtain ⟨hlength, htoggles, hcommands⟩ := hline.resolve_left hshort
    obtain ⟨content, hcontent, rfl⟩ := hcases.resolve_left hshort
    obtain ⟨⟨name, v⟩, hcvar, rfl⟩ := exists_convarLine hcontent htoggles hcommands
    have hmem : b ∈ blocks := mem_of_mem_getLast? hb
    have hname := (hacc.printable b hmem).convars name (mem_map.mpr ⟨(name, v), hcvar, rfl⟩)
    have hv : finite v := hfinite b hmem (name, v) hcvar
    have hcontentLine := contentLine_convarLine henv hname hv
    have hsize : lineBufferSize - 2 = (convarLine env (name, v)).length := by
      rw [length_cons] at hlength
      omega
    obtain ⟨st₁, hinit₁, hlast₁⟩ := foldlM_concat_eq_ok hfold
    rw [parse_tab hcontentLine.ne_nil hcontentLine.clean.noComment hcontentLine.trimmed
      hcontentLine.notFrame] at hlast₁
    have hfold' : (((init ++ [9 :: convarLine env (name, v)]).map filePiece).flatten.splitOn
        10).foldlM (parse env) {} = .ok st := by
      rw [hsplit, splitOn_filePiece_tab (Nat.not_lt.mp hshort)
        fun hmem => hnewline (mem_cons_of_mem _ hmem)]
      refine foldlM_concat_of_eq_ok hinit₁ ?_
      rw [parse_cutLine hcontentLine (by decide), hsize, addLine_cutLine_length henv hname hv]
      exact hlast₁
    exact loadFromFile_of_foldlM hfold'

/-- Nothing is lost of a script whose last line has been cut only if that line is the line of a
convar and lacks nothing but its newline. -/
theorem length_of_cut_last_line (hshort : env.Shortest finite)
    {b : FrameBlock F} (hprint : PrintableBlock env b)
    (hfinite : ∀ cvar ∈ b.convars.values, finite cvar.2)
    (hlast : (contentLines env b).getLast? = some content) {n : ℕ} {fb : FrameBlock F}
    (h : fb.addLine env content = fb.addLine env (cutLine n content)) :
    content.length ≤ n ∧ b.toggles.values = [] ∧ b.commands = [] := by
  have hcommands : b.commands = [] := by
    by_contra hne
    unfold contentLines at hlast
    rw [getLast?_append_of_ne_nil _ hne] at hlast
    exact addLine_cutLine_command (hprint.commands content (mem_of_mem_getLast? hlast)) n fb h
  have htoggles : b.toggles.values = [] := by
    by_contra hne
    unfold contentLines at hlast
    rw [hcommands, append_nil,
      getLast?_append_of_ne_nil _ (by rwa [ne_eq, map_eq_nil_iff])] at hlast
    obtain ⟨⟨name, value⟩, htoggle, rfl⟩ := mem_map.mp (mem_of_mem_getLast? hlast)
    exact addLine_cutLine_toggleLine
      (hprint.toggles name (mem_map.mpr ⟨(name, value), htoggle, rfl⟩)) value n fb h
  obtain ⟨⟨name, v⟩, hcvar, rfl⟩ := exists_convarLine hlast htoggles hcommands
  exact ⟨length_le_of_addLine_cutLine henv hshort
    (hprint.convars name (mem_map.mpr ⟨(name, v), hcvar, rfl⟩)) (hfinite (name, v) hcvar) h,
    htoggles, hcommands⟩

theorem fits_of_fileReadBack (hshort : env.Shortest finite)
    (hacc : Accepted env blocks) (hframes : (blocks.map frame).Pairwise (· ≤ ·))
    (hfinite : ∀ b ∈ blocks, ∀ cvar ∈ b.convars.values, finite cvar.2)
    (h : FileReadBack env blocks) : FitsBuffer env blocks := by
  obtain ⟨file, hwrite, hload⟩ := h
  obtain ⟨-, rfl⟩ := (writeToFile_eq_some_iff hacc).mp hwrite
  obtain ⟨st, hfold, hblocks⟩ := exists_of_loadFromFile (congrArg LoadedFile.rval hload)
  have hfinish : st.finish = blocks := hblocks.symm.trans (congrArg LoadedFile.blocks hload)
  have hread := readableLine_of_mem henv hacc.printable hfinite 0
  have hend : ∀ l ∈ lines env 0 blocks, l ≠ [] ∧ 10 ∉ l := by
    intro l hl
    refine ⟨(hread l hl).ne_nil, fun hmem => ?_⟩
    exact absurd ((hread l hl).noEnd 10 hmem) (by decide)
  -- as many lines have been read as have been written
  have hcount : (lines env 0 blocks).length ≤ (nonblank
      (((lines env 0 blocks).map filePiece).flatten.splitOn 10)).length := by
    have hweight := weight_foldlM_le hfold
    have hfinish_le := st.weight_finish_le
    rw [hfinish] at hfinish_le
    have hlength : (lines env 0 blocks).length = (blocks.map FrameBlock.weight).sum :=
      length_lines 0 hacc.parsed
    have hzero : ({} : Loader F).weight = 0 := rfl
    omega
  have hinit : ∀ l ∈ (lines env 0 blocks).dropLast, l.length + 1 < lineBufferSize := by
    intro l hl
    by_contra hlong
    have := (length_nonblank_le hend).2 ⟨l, hl, Nat.not_lt.mp hlong⟩
    omega
  refine (fitsBuffer_iff hacc).mpr ⟨hinit, fun line hline => ?_⟩
  have hne : blocks ≠ [] := by
    rintro rfl
    cases hline
  obtain ⟨init, last, b, hlines, hb, hcases⟩ := last_line hacc hframes hne
  rw [hlines, getLast?_concat] at hline
  cases hline
  by_cases hlast : line.length + 1 < lineBufferSize
  · exact .inl hlast
  obtain ⟨content, hcontent, rfl⟩ := hcases.resolve_left hlast
  have hmem : b ∈ blocks := mem_of_mem_getLast? hb
  have hcontentLine := contentLine_of_mem henv (hacc.printable b hmem) (hfinite b hmem) content
    (mem_of_mem_getLast? hcontent)
  -- both the last line that was written and the one that is read follow on the same state
  obtain ⟨st', hfold', hfinish'⟩ := exists_foldlM_lines henv hacc hframes hfinite
  rw [hlines] at hfold' hfold hinit hend
  rw [dropLast_concat] at hinit
  rw [splitOn_init (fun l hl => (hend l (mem_append_left _ hl)).2) hinit,
    splitOn_filePiece_tab (Nat.not_lt.mp hlast) fun h => absurd (hcontentLine.clean.noEnd 10 h)
      (by decide)] at hfold
  obtain ⟨st₁, hinit₁, hwritten⟩ := foldlM_concat_eq_ok hfold'
  obtain ⟨st₂, hinit₂, hcut⟩ := foldlM_concat_eq_ok hfold
  rw [hinit₁] at hinit₂
  cases hinit₂
  rw [parse_tab hcontentLine.ne_nil hcontentLine.clean.noComment hcontentLine.trimmed
    hcontentLine.notFrame] at hwritten
  rw [parse_cutLine hcontentLine (by decide)] at hcut
  cases hwritten
  cases hcut
  have hkept : ∀ line, (st₁.fb.addLine env line).parsed = st₁.fb.parsed :=
    fun line => (st₁.fb.addLine_frame line).2
  have hparsed : st₁.fb.parsed = true := by
    -- otherwise the last line is an entry of no block
    by_contra hnot
    have hweight := weight_foldlM_le hinit₁
    have hnonblank : (nonblank init).length ≤ init.length := length_filter_le _ _
    have hlength := congrArg length hlines
    rw [length_lines 0 hacc.parsed, ← hfinish', length_append, length_singleton]
      at hlength
    unfold finish at hlength
    rw [hkept, if_neg hnot] at hlength
    have hzero : ({} : Loader F).weight = 0 := rfl
    have hle : (st₁.blocks.map FrameBlock.weight).sum ≤ st₁.weight := Nat.le_add_right _ _
    dsimp only at hlength
    omega
  have hsame : st₁.fb.addLine env content =
      st₁.fb.addLine env (cutLine (lineBufferSize - 2) content) := by
    have hboth := hfinish'.trans hfinish.symm
    unfold finish at hboth
    rw [hkept, hkept, if_pos hparsed, if_pos hparsed] at hboth
    exact singleton_inj.mp (append_cancel_left hboth)
  obtain ⟨hle, htoggles, hcommands⟩ := length_of_cut_last_line henv hshort (hacc.printable b hmem)
    (hfinite b hmem) hcontent hsame
  refine .inr ⟨?_, fun b' hb' => ?_⟩
  · have hsize : 2 ≤ lineBufferSize := by decide
    rw [length_cons] at hlast ⊢
    omega
  · rw [Option.mem_def, hb] at hb'
    cases hb'
    exact ⟨htoggles, hcommands⟩

end

end RoundTrip

/-- **A script that has been loaded from a file is read back from the file to which it is
written** exactly if its lines fit into the buffer of the writer. -/
theorem script_file_round_trip_iff (henv : env.RoundTrips finite) (hshort : env.Shortest finite)
    (content : Str) (hnul : 0 ∉ content) (haccepted : (loadFromFile env [] content).rval = true)
    (hframes : ((loadFromFile env [] content).blocks.map frame).Pairwise (· ≤ ·))
    (hfinite : ∀ b ∈ (loadFromFile env [] content).blocks, ∀ cvar ∈ b.convars.values,
      finite cvar.2) :
    FileReadBack env (loadFromFile env [] content).blocks ↔
      FitsBuffer env (loadFromFile env [] content).blocks :=
  ⟨fits_of_fileReadBack henv hshort (accepted_of_loadFromFile hnul haccepted) hframes hfinite,
    fileReadBack_of_fits henv (accepted_of_loadFromFile hnul haccepted) hframes hfinite⟩

theorem integerText_shortest (isConvar : Str → Bool) :
    (integerText isConvar).Shortest fun _ => True := by
  refine ⟨fun v _ k hk hlength => ?_⟩
  obtain ⟨k, rfl⟩ := Nat.exists_eq_succ_of_ne_zero (Nat.ne_of_gt hk)
  change k + 1 < (decimalInt v).length at hlength
  show (if ((decimalInt v).take (k + 1)).head? = some 45 then
      -(ofDecimal ((decimalInt v).take (k + 1)).tail : Int)
    else ofDecimal ((decimalInt v).take (k + 1))) ≠ v
  unfold decimalInt at hlength ⊢
  split at hlength
  · next hneg =>
    rw [if_pos hneg, take_succ_cons, head?_cons, if_pos rfl, tail_cons]
    rw [length_cons] at hlength
    have hlt : ofDecimal ((decimal v.natAbs).take k) < v.natAbs :=
      ofDecimal_take_decimal_lt (by omega) (by omega)
    omega
  · next hpos =>
    rw [if_neg hpos]
    -- the text of zero has one character
    have hnonzero : 0 < v.natAbs := by
      rcases Nat.eq_zero_or_pos v.natAbs with hzero | h
      · rw [hzero] at hlength
        exact absurd hlength (Nat.not_lt.mpr (Nat.le_add_left 1 k))
      · exact h
    have hlt := ofDecimal_take_decimal_lt hnonzero hlength
    split <;> omega

theorem script_file_round_trip_two_blocks :
    FileReadBack (integerText fun name => name == str "tas_yaw")
      (loadFromFile (integerText fun name => name == str "tas_yaw") [] twoBlocks).blocks := by
  refine (script_file_round_trip_iff (integerText_roundTrips fun name => name == str "tas_yaw")
    (integerText_shortest _) twoBlocks (by decide +kernel) (by decide +kernel) (by decide +kernel)
    fun _ _ _ _ => trivial).mpr ⟨by decide +kernel, ?_⟩
  exact fun t ht => .inl ((by decide +kernel : ∀ t ∈ (text (integerText fun name =>
    name == str "tas_yaw") 0 (loadFromFile (integerText fun name => name == str "tas_yaw") []
      twoBlocks).blocks).getLast?, t.length < lineBufferSize) t ht)

/-- A command of 1100 characters. -/
def longCommand : Str := replicate 1100 97

/-- The command comes back with 1022 characters and a null character. -/
theorem long_command_is_cut :
    (loadFromFile (integerText fun _ => false) [] (str "0:\n" ++ longCommand)).rval = true ∧
    (loadFromFile (integerText fun _ => false) [] (str "0:\n" ++ longCommand)).blocks.map
      commands = [[longCommand]] ∧
    ∃ file, writeToFile (integerText fun _ => false)
        (loadFromFile (integerText fun _ => false) [] (str "0:\n" ++ longCommand)).blocks =
          some file ∧
      (loadFromFile (integerText fun _ => false) [] file).rval = true ∧
      (loadFromFile (integerText fun _ => false) [] file).blocks.map commands =
        [[replicate 1022 97 ++ [0]]] := by
  refine ⟨by decide +kernel, by decide +kernel,
    str "+0:\n\t" ++ (replicate 1022 97 ++ [0]), by decide +kernel, by decide +kernel,
    by decide +kernel⟩

end TASScript

end TASQuake
