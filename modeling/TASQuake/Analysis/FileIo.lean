import Mathlib.Data.List.TakeWhile
import TASQuake.Lib.Lines
import TASQuake.Model.Io

/-!
# Reading and writing files line by line

A loop that reads a file line by line goes through the pieces between the newlines, the piece
behind the last newline included.  A text is written as it is if it fits into the buffer of
`FileWriteInterface::Write`; of a longer text a beginning is written and a null character.
-/

namespace TASQuake.Io

open Lib List

namespace FileReader

variable {σ ε : Type} (body : σ → List UInt8 → Except ε σ)

theorem getLine_append {line : List UInt8} (h : 10 ∉ line) (rest : List UInt8) :
    getLine { rest := line ++ 10 :: rest } = (line, { rest := rest }) := by
  have hline : ∀ c ∈ line, (c != 10) = true := by
    intro c hc
    simpa using ne_of_mem_of_not_mem hc h
  unfold getLine
  rw [takeWhile_append_of_pos hline, dropWhile_append_of_pos hline]
  simp

theorem getLine_of_notMem {line : List UInt8} (h : 10 ∉ line) :
    getLine { rest := line } = (line, { rest := [], good := false }) := by
  have hline : ∀ c ∈ line, (c != 10) = true := by
    intro c hc
    simpa using ne_of_mem_of_not_mem hc h
  have htake := takeWhile_eq_self_iff.mpr hline
  have hdrop := dropWhile_eq_nil_iff.mpr hline
  unfold getLine
  rw [htake, hdrop]

theorem forLines_of_not_good (fuel : ℕ) (rest : List UInt8) (s : σ) :
    forLines body fuel { rest := rest, good := false } s = .ok s := by
  cases fuel <;> rfl

theorem forLines_eq_foldlM {fuel : ℕ} {content : List UInt8} (hfuel : content.length + 2 ≤ fuel)
    (s : σ) : forLines body fuel { rest := content } s = (content.splitOn 10).foldlM body s := by
  induction fuel generalizing content s with
  | zero => omega
  | succ fuel ih =>
    unfold forLines canRead
    rw [if_pos rfl]
    by_cases hmem : 10 ∈ content
    · obtain ⟨line, rest, rfl, hline⟩ := eq_append_cons_of_mem hmem
      rw [length_append, length_cons] at hfuel
      rw [getLine_append hline, splitOn_append_cons_self_of_not_mem hline, foldlM_cons]
      exact bind_congr fun s => ih (by omega) s
    · rw [getLine_of_notMem hmem, splitOn_eq_singleton hmem, foldlM_cons]
      refine bind_congr fun s => ?_
      rw [forLines_of_not_good]
      rfl

end FileReader

theorem forLinesOf_eq_foldlM {σ ε : Type} (content : List UInt8)
    (body : σ → List UInt8 → Except ε σ) (s : σ) :
    forLinesOf content body s = (content.splitOn 10).foldlM body s :=
  FileReader.forLines_eq_foldlM body (Nat.le_refl _) s

/-! ## Pieces between newlines -/

theorem of_mem_splitOn {content line : List UInt8} (h : line ∈ content.splitOn 10) :
    ∀ c ∈ line, c ∈ content ∧ c ≠ 10 := by
  induction content using record_induction (a := (10 : UInt8)) with
  | last content hcontent =>
    rw [splitOn_eq_singleton hcontent] at h
    rw [mem_singleton.mp h]
    exact fun c hc => ⟨hc, ne_of_mem_of_not_mem hc hcontent⟩
  | record first rest hfirst ih =>
    rw [splitOn_append_cons_self_of_not_mem hfirst] at h
    rcases mem_cons.mp h with rfl | h
    · exact fun c hc => ⟨mem_append_left _ hc, ne_of_mem_of_not_mem hc hfirst⟩
    · intro c hc
      obtain ⟨hrest, hne⟩ := ih h c hc
      exact ⟨mem_append_right _ (mem_cons_of_mem _ hrest), hne⟩

theorem exists_splitOn_append {lead : List UInt8} (h : 10 ∉ lead) (rest : List UInt8) :
    ∃ line lines, rest.splitOn 10 = line :: lines ∧
      (lead ++ rest).splitOn 10 = (lead ++ line) :: lines := by
  obtain ⟨line, lines, hrest⟩ := exists_cons_of_ne_nil (splitOn_ne_nil 10 rest)
  refine ⟨line, lines, hrest, ?_⟩
  induction lead with
  | nil => exact hrest
  | cons c lead ih =>
    rw [mem_cons, not_or] at h
    rw [cons_append, splitOn_cons_eq_if_modifyHead, if_neg, ih h.2]
    · rfl
    · simpa using Ne.symm h.1

theorem splitOn_lines {lines : List (List UInt8)} (h : ∀ line ∈ lines, 10 ∉ line)
    (rest : List UInt8) :
    ((lines.map (· ++ [10])).flatten ++ rest).splitOn 10 = lines ++ rest.splitOn 10 := by
  induction lines with
  | nil => rfl
  | cons line lines ih =>
    rw [map_cons, flatten_cons, append_assoc, append_assoc,
      singleton_append, splitOn_append_cons_self_of_not_mem (h line mem_cons_self),
      ih fun l hl => h l (mem_cons_of_mem _ hl), cons_append]

/-! ## Writing -/

/-- What stands in a file for a text. -/
def linePiece (text : List UInt8) : List UInt8 :=
  if text.length < lineBufferSize then text else text.take (lineBufferSize - 1) ++ [0]

theorem fileWrite_eq_some_iff {content text content' : List UInt8} :
    fileWrite content text = some content' ↔
      text.length < 2 ^ 31 ∧ content' = content ++ linePiece text := by
  have hbuffer : (vsnprintf (List.replicate lineBufferSize 0) 0 lineBufferSize text).take
      (min lineBufferSize text.length) = linePiece text := by
    unfold vsnprintf memcpy linePiece
    rw [if_neg (by decide), take_zero, nil_append]
    split
    · next hshort =>
      have hall : text.take (lineBufferSize - 1) = text := take_of_length_le (by omega)
      rw [hall, append_assoc, Nat.min_eq_right (by omega), take_left]
    · next hlong =>
      have hlen : (text.take (lineBufferSize - 1) ++ [0]).length = lineBufferSize := by
        rw [length_append, length_take, length_singleton]
        unfold lineBufferSize at hlong ⊢
        omega
      rw [Nat.min_eq_left (by omega), take_append_of_le_length (Nat.le_of_eq hlen.symm),
        take_of_length_le (Nat.le_of_eq hlen)]
  unfold fileWrite
  simp only [hbuffer]
  split
  · next hbig =>
    constructor
    · intro h
      cases h
    · exact fun h => absurd h.1 (Nat.not_lt.mpr hbig)
  · next hsmall =>
    rw [Option.some.injEq, eq_comm, and_iff_right (Nat.not_le.mp hsmall)]

theorem foldlM_fileWrite_eq_some_iff {content content' : List UInt8} {texts : List (List UInt8)} :
    texts.foldlM fileWrite content = some content' ↔
      (∀ text ∈ texts, text.length < 2 ^ 31) ∧
        content' = content ++ (texts.map linePiece).flatten := by
  induction texts generalizing content with
  | nil => simp [eq_comm]
  | cons text texts ih =>
    rw [foldlM_cons, bind_eq_some]
    simp only [fileWrite_eq_some_iff, ih, forall_mem_cons, map_cons, flatten_cons]
    constructor
    · rintro ⟨_, ⟨hfirst, rfl⟩, hrest, rfl⟩
      exact ⟨⟨hfirst, hrest⟩, by rw [append_assoc]⟩
    · rintro ⟨⟨hfirst, hrest⟩, rfl⟩
      exact ⟨_, ⟨hfirst, rfl⟩, hrest, by rw [append_assoc]⟩

end TASQuake.Io
