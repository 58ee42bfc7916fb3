import Mathlib.Data.List.GetD
import TASQuake.Lib.Lines
import TASQuake.Model.ConsoleInput

/-!
# Lines from the console

After every line `tasquake_stdin_read` moves the rest of its buffer to the front, but one byte less
than there are: the last byte of the rest becomes what stood at its new place.  Only the move after
the last line counts, since the moves before it do not read the byte that they spoil
(`Consumed.congr_last`).
-/

namespace TASQuake.Analysis.ConsoleLines

open Lib StdinInput Nat List
open TASScript (cStr cStr_eq_self_iff)

/-! ## What a move spoils -/

/-- The byte that is at the end of the rest after the move: it stood there before, in the line, at
its end or in the rest. -/
def displaced (line rest : Str) : UInt8 := (line ++ 0 :: rest).getD (rest.length - 1) 0

/-- The rest after the move. -/
def moved (line rest : Str) : Str :=
  if rest = [] then [] else rest.dropLast ++ [displaced line rest]

theorem displaced_append_singleton (line rest : Str) (c : UInt8) :
    displaced line (rest ++ [c]) = (line ++ 0 :: rest).getD rest.length 0 := by
  have hassoc : line ++ 0 :: (rest ++ [c]) = (line ++ 0 :: rest) ++ [c] := by
    rw [append_assoc, cons_append]
  have hlen : rest.length < (line ++ 0 :: rest).length := by
    rw [length_append, length_cons]
    omega
  unfold displaced
  rw [hassoc, length_append, length_singleton, Nat.add_sub_cancel, getD_append _ _ _ _ hlen]

theorem moved_append_singleton (line rest : Str) (c : UInt8) :
    moved line (rest ++ [c]) = rest ++ [(line ++ 0 :: rest).getD rest.length 0] := by
  unfold moved
  rw [if_neg (by simp), displaced_append_singleton, dropLast_concat]

variable {line rest : Str}

theorem displaced_ne_newline (hline : 10 ∉ line) (hrest : 10 ∉ rest) :
    (line ++ 0 :: rest).getD rest.length 0 ≠ 10 := by
  have hlen : rest.length < (line ++ 0 :: rest).length := by
    rw [length_append, length_cons]
    omega
  have hmem : (line ++ 0 :: rest).getD rest.length 0 ∈ line ++ 0 :: rest := by
    rw [getD_eq_getElem _ _ hlen]
    exact getElem_mem hlen
  intro heq
  rw [heq, mem_append, mem_cons] at hmem
  rcases hmem with hmem | hmem | hmem
  · exact hline hmem
  · exact absurd hmem (by decide)
  · exact hrest hmem

/-! ## The loop on bytes -/

/-- The loop passes lines to the callback until there is no newline any more. -/
inductive Consumed : Str → List Str → Str → Prop
  | done {bytes : Str} (h : 10 ∉ bytes) : Consumed bytes [] bytes
  | line {line rest final : Str} {lines : List Str} (hline : 10 ∉ line)
      (hrest : Consumed (moved line rest) lines final) :
      Consumed (line ++ 10 :: rest) (cStr line :: lines) final

namespace Consumed

variable {lines : List Str} {final : Str}

theorem of_notMem {bytes : Str} (h : Consumed bytes lines final) (hbytes : 10 ∉ bytes) :
    lines = [] ∧ final = bytes := by
  cases h with
  | done _ => exact ⟨rfl, rfl⟩
  | line _ _ => exact absurd (mem_append_right _ mem_cons_self) hbytes

theorem of_cons {line rest : Str} (hline : 10 ∉ line)
    (h : Consumed (line ++ 10 :: rest) lines final) :
    ∃ lines', lines = cStr line :: lines' ∧ Consumed (moved line rest) lines' final := by
  generalize hbytes : line ++ 10 :: rest = bytes at h
  cases h with
  | done hnone =>
    rw [← hbytes] at hnone
    exact absurd (mem_append_right _ mem_cons_self) hnone
  | @line line' rest' _ lines' hline' hrest =>
    rcases append_cons_eq_append_cons hline hbytes with ⟨rfl, rfl⟩ | ⟨between, hsplit, -⟩
    · exact ⟨lines', rfl, hrest⟩
    · rw [hsplit] at hline'
      exact absurd (mem_append_right _ mem_cons_self) hline'

theorem congr_last {bytes : Str} {c : UInt8} (h : Consumed (bytes ++ [c]) lines final)
    (hmem : 10 ∈ bytes) (d : UInt8) : Consumed (bytes ++ [d]) lines final := by
  obtain ⟨line, rest, rfl, hline⟩ := eq_append_cons_of_mem hmem
  rw [append_assoc, cons_append] at h ⊢
  obtain ⟨lines', rfl, hrest⟩ := of_cons hline h
  rw [moved_append_singleton, ← moved_append_singleton line rest d] at hrest
  exact Consumed.line hline hrest

end Consumed

/-! ## Correct calls -/

/-- The last line that is followed by anything is `remainder 10 before`; the move behind it puts the
right byte at the end of the rest. -/
def KeepsLast (bytes : Str) : Prop :=
  ∀ before rest, bytes = before ++ 10 :: rest → rest ≠ [] → 10 ∉ rest.dropLast →
    rest.getLast? = some (displaced (remainder 10 before) rest)

/-- Bytes that a call makes its lines of without loss. -/
def Harmless (bytes : Str) : Prop :=
  (∀ line ∈ terminated 10 bytes, 0 ∉ line) ∧ KeepsLast bytes

variable {bytes : Str}

theorem harmless_of_notMem (h : 10 ∉ bytes) : Harmless bytes := by
  refine ⟨?_, ?_⟩
  · rw [terminated_of_notMem h]
    exact fun line hline => absurd hline not_mem_nil
  · rintro before rest rfl
    exact absurd (mem_append_right _ mem_cons_self) h

theorem keepsLast_of_last_line (hline : 10 ∉ line) : KeepsLast (line ++ [10]) := by
  intro before rest heq hne
  rcases append_cons_eq_append_cons hline heq with ⟨-, hrest⟩ | ⟨between, -, hrest⟩
  · exact absurd hrest hne
  · exact absurd hrest (by simp)

theorem keepsLast_cons_iff (hline : 10 ∉ line) (hmem : 10 ∈ rest.dropLast) :
    KeepsLast (line ++ 10 :: rest) ↔ KeepsLast rest := by
  constructor
  · rintro h before after rfl hne hafter
    have hlast := h (line ++ 10 :: before) after (by rw [append_assoc, cons_append]) hne
      hafter
    rw [(terminated_of_cons hline before).2] at hlast
    exact hlast
  · intro h before after heq hne hafter
    rcases append_cons_eq_append_cons hline heq with ⟨-, rfl⟩ | ⟨between, rfl, rfl⟩
    · exact absurd hmem hafter
    · rw [(terminated_of_cons hline between).2]
      exact h between after rfl hne hafter

theorem keepsLast_iff_of_notMem (hline : 10 ∉ line) (hne : rest ≠ []) (hrest : 10 ∉ rest.dropLast) :
    KeepsLast (line ++ 10 :: rest) ↔ rest.getLast? = some (displaced line rest) := by
  constructor
  · intro h
    have hlast := h line rest rfl hne hrest
    rw [remainder_of_notMem hline] at hlast
    exact hlast
  · intro h before after heq hafterNe hafter
    rcases append_cons_eq_append_cons hline heq with ⟨rfl, rfl⟩ | ⟨between, -, rfl⟩
    · rw [remainder_of_notMem hline]
      exact h
    · refine absurd ?_ hrest
      rw [dropLast_append_cons, dropLast_cons_of_ne_nil hafterNe]
      exact mem_append_right _ mem_cons_self

/-- **A call is correct exactly if its bytes are harmless.** -/
theorem Consumed.correct_iff {final : Str} {lines : List Str} (h : Consumed bytes lines final) :
    (lines = terminated 10 bytes ∧ final = remainder 10 bytes) ↔ Harmless bytes := by
  induction bytes using record_induction (a := (10 : UInt8)) generalizing lines final with
  | last bytes hbytes =>
    obtain ⟨rfl, rfl⟩ := h.of_notMem hbytes
    rw [terminated_of_notMem hbytes, remainder_of_notMem hbytes]
    exact iff_of_true ⟨rfl, rfl⟩ (harmless_of_notMem hbytes)
  | record line rest hline ih =>
    obtain ⟨lines, rfl, hrest⟩ := h.of_cons hline
    obtain ⟨hterminated, hremainder⟩ := terminated_of_cons hline rest
    have hlines : cStr line :: lines = line :: terminated 10 rest ↔
        0 ∉ line ∧ lines = terminated 10 rest := by
      rw [cons.injEq, cStr_eq_self_iff]
    unfold Harmless
    rw [hterminated, hremainder, hlines, forall_mem_cons]
    -- the first line counts by itself; what follows is about the rest
    suffices hsuffices : (lines = terminated 10 rest ∧ final = remainder 10 rest) ↔
        (∀ l ∈ terminated 10 rest, 0 ∉ l) ∧ KeepsLast (line ++ 10 :: rest) by
      rw [and_assoc, and_assoc, hsuffices]
    rcases eq_nil_or_concat rest with rfl | ⟨start, c, rfl⟩
    · have hnone : (10 : UInt8) ∉ ([] : Str) := not_mem_nil
      obtain ⟨rfl, rfl⟩ := hrest.of_notMem hnone
      rw [terminated_of_notMem hnone, remainder_of_notMem hnone]
      exact iff_of_true ⟨rfl, rfl⟩
        ⟨fun l hl => absurd hl not_mem_nil, keepsLast_of_last_line hline⟩
    · rw [concat_eq_append] at *
      rw [moved_append_singleton] at hrest
      by_cases hmem : 10 ∈ start
      · rw [keepsLast_cons_iff hline (by rw [dropLast_concat]; exact hmem)]
        exact ih (hrest.congr_last hmem c)
      · have hdisplaced := displaced_ne_newline hline hmem
        have hkeeps : KeepsLast (line ++ 10 :: (start ++ [c])) ↔ _ :=
          keepsLast_iff_of_notMem hline (by simp) (by rw [dropLast_concat]; exact hmem)
        rw [getLast?_concat, Option.some.injEq, displaced_append_singleton] at hkeeps
        generalize (line ++ 0 :: start).getD start.length 0 = d at hrest hdisplaced hkeeps
        have hmoved : 10 ∉ start ++ [d] := by
          rw [mem_append, mem_singleton, not_or]
          exact ⟨hmem, hdisplaced.symm⟩
        obtain ⟨rfl, rfl⟩ := hrest.of_notMem hmoved
        rw [hkeeps]
        by_cases hc : c = 10
        · -- the end of the last line has been lost
          subst hc
          obtain ⟨hterm, hrem⟩ := terminated_of_cons hmem []
          rw [hterm, hrem]
          refine iff_of_false (fun hcorrect => ?_) (fun hright => hdisplaced hright.2.symm)
          exact absurd hcorrect.1.symm (cons_ne_nil _ _)
        · have hstart : 10 ∉ start ++ [c] := by
            rw [mem_append, mem_singleton, not_or]
            exact ⟨hmem, fun heq => hc heq.symm⟩
          rw [terminated_of_notMem hstart, remainder_of_notMem hstart]
          constructor
          · rintro ⟨-, heq⟩
            have hlast := append_inj_right' heq rfl
            exact ⟨fun l hl => absurd hl not_mem_nil, (singleton_inj.mp hlast).symm⟩
          · rintro ⟨-, rfl⟩
            exact ⟨rfl, rfl⟩

/-! ## The buffer -/

/-- What holds of the buffer: its memory has its size, and the index is inside. -/
structure Valid (input : StdinInput) : Prop where
  length_eq : input.buffer.length = input.bufferSize
  index_le : input.inputIndex ≤ input.bufferSize
  size_pos : 0 < input.bufferSize

/-- The bytes that have been read and not consumed. -/
def view (input : StdinInput) : Str := input.buffer.take input.inputIndex

theorem valid_init : Valid init := by
  refine ⟨?_, zero_le _, by decide⟩
  show (replicate 4096 (0 : UInt8)).length = 4096
  rw [length_replicate]

variable {input : StdinInput}

theorem Valid.grow (h : Valid input) :
    Valid input.grow ∧ view input.grow = view input ∧ 0 < input.grow.bytesLeft := by
  obtain ⟨hlen, hle, hpos⟩ := h
  unfold StdinInput.grow
  split
  · next hfull =>
    unfold bytesLeft at hfull
    refine ⟨⟨?_, ?_, ?_⟩, ?_, ?_⟩
    · show (input.buffer ++ replicate (input.bufferSize * 2 - input.buffer.length) 0).length =
        input.bufferSize * 2
      rw [length_append, length_replicate]
      omega
    · show input.inputIndex ≤ input.bufferSize * 2
      omega
    · show 0 < input.bufferSize * 2
      omega
    · show (input.buffer ++ _).take input.inputIndex = input.buffer.take input.inputIndex
      exact take_append_of_le_length (by omega)
    · show 0 < input.bufferSize * 2 - input.inputIndex
      omega
  · next hroom => exact ⟨⟨hlen, hle, hpos⟩, rfl, pos_of_ne_zero hroom⟩

theorem cStr_append_zero (line rest : Str) : cStr (line ++ 0 :: rest) = cStr line := by
  unfold cStr
  rw [takeWhile_append]
  split
  · next hall =>
    rw [takeWhile_cons_of_neg (by decide), append_nil]
    have hself := (List.takeWhile_prefix _).eq_of_length hall
    exact hself.symm
  · rfl

theorem take_move (line start mem : Str) (c : UInt8) :
    (memcpy (line ++ 0 :: (start ++ c :: mem)) 0
      (slice (line ++ 0 :: (start ++ c :: mem)) (line.length + 1) start.length)).take
        (start.length + 1) = moved line (start ++ [c]) := by
  have hslice : slice (line ++ 0 :: (start ++ c :: mem)) (line.length + 1) start.length =
      start := by
    unfold slice
    rw [← drop_drop, drop_left, drop_one, tail_cons, take_left]
  have hassoc : line ++ 0 :: (start ++ c :: mem) = (line ++ 0 :: start) ++ c :: mem := by
    rw [append_assoc, cons_append]
  have hindex : start.length < (line ++ 0 :: start).length := by
    rw [length_append, length_cons]
    omega
  unfold memcpy
  rw [hslice, take_zero, nil_append, zero_add, take_length_add_append, hassoc,
    drop_append_of_le_length (le_of_lt hindex), drop_eq_getElem_cons hindex,
    moved_append_singleton, getD_eq_getElem _ _ hindex]
  rfl

variable {scan : Scan}

theorem body_of_ne (h : scan.input.buffer.getD scan.i 0 ≠ 10) :
    scan.body = some { scan with i := scan.i + 1 } := if_pos h

theorem body_of_newline {mem : Str} (hbuffer : scan.input.buffer = line ++ 10 :: (rest ++ mem))
    (hindex : scan.input.inputIndex = line.length + 1 + rest.length) (hi : scan.i = line.length) :
    ∃ buffer, scan.body = some
        { input := { scan.input with buffer := buffer, inputIndex := rest.length }
          i := 0
          lines := scan.lines ++ [cStr line] } ∧
      buffer.take rest.length = moved line rest ∧
      buffer.length = scan.input.buffer.length := by
  have hnewline : scan.input.buffer.getD scan.i 0 = 10 := by
    rw [hbuffer, hi, getD_append_right _ _ _ _ (le_refl _), Nat.sub_self]
    rfl
  have hleft : scan.input.inputIndex - scan.i - 1 = rest.length := by omega
  have hended : memcpy scan.input.buffer scan.i [0] = line ++ 0 :: (rest ++ mem) := by
    unfold memcpy
    rw [hbuffer, hi, take_left, ← drop_drop, drop_left, append_assoc]
    rfl
  have hlen : (line ++ 0 :: (rest ++ mem)).length = scan.input.buffer.length := by
    rw [hbuffer, length_append, length_append, length_cons, length_cons]
  unfold Scan.body
  rw [if_neg (not_not.mpr hnewline)]
  simp only [hended, hleft, cStr_append_zero]
  rw [hi]
  rcases eq_nil_or_concat rest with rfl | ⟨start, c, rfl⟩
  · exact ⟨_, rfl, take_zero, hlen⟩
  · rw [concat_eq_append] at hlen ⊢
    have hlength : (start ++ [c]).length = start.length + 1 := length_append
    rw [hlength, Nat.add_sub_cancel, if_pos (succ_pos _), append_assoc, singleton_append]
    rw [append_assoc, singleton_append] at hlen
    refine ⟨_, rfl, take_move line start mem c, ?_⟩
    rw [← hlen]
    refine length_memcpy ?_
    unfold slice
    rw [length_take, length_append, length_cons, length_append]
    omega

/-- What holds whenever the condition of the loop is evaluated: the bytes scanned contain no newline,
and what will be consumed completes what has been. -/
structure ScanInv (bytes : Str) (scan : Scan) : Prop where
  valid : Valid scan.input
  scanned : 10 ∉ (view scan.input).take scan.i
  index_le : scan.i ≤ scan.input.inputIndex
  consumed : ∀ lines final, Consumed (view scan.input) lines final →
    Consumed bytes (scan.lines ++ lines) final

theorem Valid.length_view (h : Valid input) : (view input).length = input.inputIndex := by
  have hlen := h.length_eq
  have hle := h.index_le
  unfold view
  rw [length_take]
  omega

theorem ScanInv.body (h : ScanInv bytes scan) (hgo : scan.goesOn = true) :
    ∃ next, scan.body = some next ∧ ScanInv bytes next ∧
      next.input.inputIndex - next.i < scan.input.inputIndex - scan.i := by
  have hlt : scan.i < scan.input.inputIndex := of_decide_eq_true hgo
  have hview := h.valid.length_view
  have hi : scan.i < (view scan.input).length := by omega
  have hbuffer : scan.input.buffer = view scan.input ++ scan.input.buffer.drop
      scan.input.inputIndex := (take_append_drop _ _).symm
  have hget : scan.input.buffer.getD scan.i 0 = (view scan.input)[scan.i] := by
    rw [hbuffer, getD_append _ _ _ _ hi, getD_eq_getElem _ _ hi]
  by_cases hnewline : (view scan.input)[scan.i] = 10
  · have hsplit : view scan.input = (view scan.input).take scan.i ++
        10 :: (view scan.input).drop (scan.i + 1) := by
      rw [← hnewline, ← drop_eq_getElem_cons hi, take_append_drop]
    have hline : ((view scan.input).take scan.i).length = scan.i := by
      rw [length_take]
      omega
    have hrest : ((view scan.input).drop (scan.i + 1)).length =
        scan.input.inputIndex - scan.i - 1 := by
      rw [length_drop]
      omega
    have hscanned := h.scanned
    have hconsumed := h.consumed
    generalize (view scan.input).take scan.i = line at hsplit hline hscanned
    generalize (view scan.input).drop (scan.i + 1) = rest at hsplit hrest
    rw [hsplit] at hbuffer hconsumed
    rw [append_assoc, cons_append] at hbuffer
    obtain ⟨buffer, hbody, htake, hlen⟩ := body_of_newline hbuffer (by omega) hline.symm
    have hvalid := h.valid
    have hsize := hvalid.length_eq
    have hle := hvalid.index_le
    refine ⟨_, hbody, ⟨⟨hlen.trans hsize, ?_, hvalid.size_pos⟩, ?_, zero_le _, ?_⟩, ?_⟩
    · show rest.length ≤ scan.input.bufferSize
      omega
    · exact not_mem_nil
    · intro lines final hfinal
      have hfinal' : Consumed (buffer.take rest.length) lines final := hfinal
      rw [htake] at hfinal'
      rw [append_assoc]
      exact hconsumed _ _ (Consumed.line hscanned hfinal')
    · show rest.length - 0 < scan.input.inputIndex - scan.i
      omega
  · refine ⟨_, body_of_ne (by rw [hget]; exact hnewline), ⟨h.valid, ?_, hlt, h.consumed⟩, ?_⟩
    · show 10 ∉ (view scan.input).take (scan.i + 1)
      rw [take_succ_eq_append_getElem hi, mem_append, mem_singleton, not_or]
      exact ⟨h.scanned, fun heq => hnewline heq.symm⟩
    · show scan.input.inputIndex - (scan.i + 1) < scan.input.inputIndex - scan.i
      omega

/-- **The loop ends, and it has consumed the bytes.** -/
theorem exists_scan (h : Valid input) {i : ℕ} (hscanned : 10 ∉ (view input).take i)
    (hi : i ≤ input.inputIndex) {fuel : ℕ} (hfuel : input.inputIndex - i < fuel) :
    ∃ scan, whileLoop Scan.goesOn Scan.body fuel ⟨input, i, []⟩ = some scan ∧ Valid scan.input ∧
      Consumed (view input) scan.lines (view scan.input) := by
  have hstart : ScanInv (view input) ⟨input, i, []⟩ :=
    ⟨h, hscanned, hi, fun lines final hfinal => hfinal⟩
  obtain ⟨scan, hloop, hinv, hend⟩ :=
    exists_whileLoop (fun _ hinv hgo => hinv.body hgo) hstart hfuel
  have hall : (view scan.input).take scan.i = view scan.input := by
    have hge := of_decide_eq_false hend
    have hlen := hinv.valid.length_view
    exact take_of_length_le (by omega)
  have hnone := hinv.scanned
  rw [hall] at hnone
  have hconsumed := hinv.consumed [] _ (Consumed.done hnone)
  rw [append_nil] at hconsumed
  exact ⟨scan, hloop, hinv.valid, hconsumed⟩

/-! ## Calls -/

/-- The bytes that a call gets. -/
def received : StdinEvent → Str
  | .data bytes => bytes
  | _ => []

/-- A call can be made: `read` returns no more bytes than it is given room for. -/
def Possible (input : StdinInput) (event : StdinEvent) : Prop :=
  (received event).length ≤ input.grow.bytesLeft

instance (input : StdinInput) (event : StdinEvent) : Decidable (Possible input event) :=
  inferInstanceAs (Decidable (_ ≤ _))

/-- **One call:** it returns, and it has consumed the bytes that were left and those that it got. -/
theorem exists_read (h : Valid input) (hleft : 10 ∉ view input) {event : StdinEvent}
    (hpossible : Possible input event) :
    ∃ input' lines, input.read event = some (input', lines) ∧ Valid input' ∧
      Consumed (view input ++ received event) lines (view input') := by
  obtain ⟨hgrown, hview, hroom⟩ := h.grow
  have hnothing : Consumed (view input ++ []) [] (view input) := by
    rw [append_nil]
    exact Consumed.done hleft
  cases event with
  | selectFailed => exact ⟨input, [], rfl, h, hnothing⟩
  | notSet => exact ⟨input.grow, [], rfl, hgrown, by rw [hview]; exact hnothing⟩
  | data bytes =>
    have hbytes : bytes.length ≤ input.grow.bytesLeft := hpossible
    unfold StdinInput.read
    by_cases hempty : bytes = []
    · subst hempty
      exact ⟨input.grow, [], rfl, hgrown, by rw [hview]; exact hnothing⟩
    · simp only [hempty, if_false, if_neg (not_lt.mpr hbytes)]
      generalize input.grow = grown at hgrown hview hroom hbytes
      have hlength := hgrown.length_eq
      have hindex := hgrown.index_le
      unfold bytesLeft at hbytes
      have hnew : view { grown with
          buffer := memcpy grown.buffer grown.inputIndex bytes
          inputIndex := grown.inputIndex + bytes.length } = view input ++ bytes := by
        have hlen : (view grown).length = grown.inputIndex := hgrown.length_view
        have hmem : memcpy grown.buffer grown.inputIndex bytes = view grown ++ bytes ++
          grown.buffer.drop (grown.inputIndex + bytes.length) := rfl
        rw [hmem, hview]
        rw [hview] at hlen
        exact take_left' (by rw [length_append, hlen])
      have hvalid : Valid { grown with
          buffer := memcpy grown.buffer grown.inputIndex bytes
          inputIndex := grown.inputIndex + bytes.length } := by
        refine ⟨(length_memcpy (by omega)).trans hlength, ?_, hgrown.size_pos⟩
        show grown.inputIndex + bytes.length ≤ grown.bufferSize
        omega
      have hscanned : 10 ∉ (view input ++ bytes).take grown.inputIndex := by
        have hlen := hview ▸ hgrown.length_view
        rw [take_left' hlen]
        exact hleft
      obtain ⟨scan, hloop, hscan, hconsumed⟩ := exists_scan hvalid (by rw [hnew]; exact hscanned)
        (le_add_right _ _) (show _ < bytes.length + 1 by simp only; omega)
      rw [hnew] at hconsumed
      exact ⟨scan.input, scan.lines, by rw [hloop]; rfl, hscan, hconsumed⟩

/-! ## Runs -/

/-- The bytes that have been received. -/
def stream (events : List StdinEvent) : Str := events.flatMap received

/-- The callback has got the lines of the stream, and the buffer holds its remainder. -/
def Intact (stream : Str) (state : StdinInput × List Str) : Prop :=
  state.2 = terminated 10 stream ∧ view state.1 = remainder 10 stream

theorem Consumed.notMem_final {final : Str} {lines : List Str} (h : Consumed bytes lines final) :
    10 ∉ final := by
  induction h with
  | done h => exact h
  | line _ _ ih => exact ih

/-- **Console lines arrive intact exactly if every call is harmless:** in what is left of the bytes
before it and the bytes that it gets, no line contains a null character, and the byte that the last
move leaves at the end is the right one. -/
theorem console_lines_intact_iff (events : List StdinEvent)
    (hpossible : Guarded step (fun state event => Possible state.1 event) (init, []) events) :
    (∀ past, past <+: events → ∃ state, calls past = some state ∧ Intact (stream past) state) ↔
      ∀ past event, past ++ [event] <+: events →
        Harmless (remainder 10 (stream past) ++ received event) := by
  refine exact_run (J := fun state => Valid state.1 ∧ 10 ∉ view state.1)
    (I := fun past state => Intact (stream past) state) ?_
    ⟨valid_init, not_mem_nil⟩ ⟨rfl, rfl⟩ hpossible
  rintro past ⟨input, lines⟩ event ⟨hvalid, hleft⟩ ⟨hlines, hview⟩ hcall
  obtain ⟨input', new, hread, hvalid', hconsumed⟩ := exists_read hvalid hleft hcall
  refine ⟨(input', lines ++ new), ?_, ⟨hvalid', hconsumed.notMem_final⟩, ?_⟩
  · unfold step
    rw [hread]
    rfl
  · have hstream : stream (past ++ [event]) = stream past ++ received event := by
      unfold stream
      rw [flatMap_append, flatMap_singleton]
    obtain ⟨hterminated, hremainder⟩ :=
      terminated_append (a := (10 : UInt8)) (stream past) (received event)
    have hlines' : lines = terminated 10 (stream past) := hlines
    have hview' : view input = remainder 10 (stream past) := hview
    rw [hview'] at hconsumed
    rw [← hconsumed.correct_iff]
    unfold Intact
    rw [hstream, hterminated, hremainder, hlines', append_cancel_left_eq]

/-- A line in two reads. -/
theorem console_lines_intact_two_reads :
    ∃ state, calls [.data (str "ab"), .data (str "c\n")] = some state ∧
      state.2 = [str "abc"] ∧ view state.1 = [] := by
  have hharmless : ∀ past event,
      past ++ [event] <+: [StdinEvent.data (str "ab"), .data (str "c\n")] →
        Harmless (remainder 10 (stream past) ++ received event) := by
    rintro (_ | ⟨first, _ | ⟨second, past⟩⟩) event hpast
    · obtain ⟨rfl, -⟩ := cons_prefix_cons.mp hpast
      exact harmless_of_notMem (by decide)
    · obtain ⟨rfl, hrest⟩ := cons_prefix_cons.mp hpast
      obtain ⟨rfl, -⟩ := cons_prefix_cons.mp hrest
      exact ⟨by decide, keepsLast_of_last_line (show 10 ∉ str "abc" by decide)⟩
    · have hlen := hpast.length_le
      rw [length_append, length_cons, length_cons] at hlen
      exact absurd hlen (by simp)
  have hiff := console_lines_intact_iff [.data (str "ab"), .data (str "c\n")] (by decide +kernel)
  obtain ⟨state, hcalls, hlines, hview⟩ := hiff.mpr hharmless _ prefix_rfl
  exact ⟨state, hcalls, hlines.trans (by decide), hview.trans (by decide)⟩

/-- Two lines in one read: the end of the second is lost.  The rest of a line is spoilt, too. -/
theorem second_line_is_lost :
    (calls [.data (str "a\nb\n")]).map (fun state => (state.2, view state.1)) =
        some ([str "a"], [98, 0]) ∧
      (calls [.data (str "ab\ncd")]).map (fun state => (state.2, view state.1)) =
        some ([str "ab"], str "cb") := by
  decide +kernel

end TASQuake.Analysis.ConsoleLines
