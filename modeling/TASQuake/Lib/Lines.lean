import Mathlib.Data.List.Basic

/-!
# Records of a stream

A stream of cells is cut into records by a cell that ends each of them.  `terminated a l` are the
records of `l` that have been ended and `remainder a l` is what follows the last of them.
-/

namespace TASQuake.Lib

open List

/-- Induction over the records of a stream. -/
@[elab_as_elim]
theorem record_induction {α : Type} {a : α} {motive : List α → Prop}
    (last : ∀ l, a ∉ l → motive l)
    (record : ∀ line rest, a ∉ line → motive rest → motive (line ++ a :: rest)) (l : List α) :
    motive l := by
  induction hn : l.length using Nat.strongRecOn generalizing l with
  | _ n ih =>
    by_cases hmem : a ∈ l
    · obtain ⟨line, rest, rfl, hline⟩ := eq_append_cons_of_mem hmem
      rw [length_append, length_cons] at hn
      exact record line rest hline (ih rest.length (by omega) rest rfl)
    · exact last l hmem

/-- Two places where a stream is cut, the first of which is its first end. -/
theorem append_cons_eq_append_cons {α : Type} {a : α} {line rest before after : List α}
    (hline : a ∉ line) (h : line ++ a :: rest = before ++ a :: after) :
    (before = line ∧ after = rest) ∨
      ∃ between, before = line ++ a :: between ∧ rest = between ++ a :: after := by
  rcases append_eq_append_iff.mp h with ⟨between, hbefore, hcut⟩ | ⟨between, hcut, hafter⟩
  · cases between with
    | nil =>
      cases hcut
      exact Or.inl ⟨by rw [hbefore, append_nil], rfl⟩
    | cons b between =>
      cases hcut
      exact Or.inr ⟨between, hbefore, rfl⟩
  · cases between with
    | nil =>
      cases hafter
      exact Or.inl ⟨by rw [hcut, append_nil], rfl⟩
    | cons b between =>
      cases hafter
      rw [hcut] at hline
      exact absurd (mem_append_right _ mem_cons_self) hline

section Records

variable {α : Type} [BEq α]

/-- The records that have been ended, without their ends. -/
def terminated (a : α) (l : List α) : List (List α) := (l.splitOn a).dropLast

/-- What follows the last end. -/
def remainder (a : α) (l : List α) : List α := (l.splitOn a).getLastD []

theorem splitOn_eq_terminated_append {a : α} (l : List α) :
    l.splitOn a = terminated a l ++ [remainder a l] := by
  have hne := splitOn_ne_nil a l
  unfold terminated remainder
  rw [getLastD_eq_getLast?, getLast?_eq_some_getLast hne]
  exact (dropLast_append_getLast hne).symm

/-- The pieces between the ends are the records and the remainder. -/
theorem terminated_remainder_of_splitOn {a : α} {l last : List α} {records : List (List α)}
    (h : l.splitOn a = records ++ [last]) : terminated a l = records ∧ remainder a l = last := by
  have heq := (splitOn_eq_terminated_append l).symm.trans h
  have hlast := append_inj_right' heq rfl
  exact ⟨append_inj_left' heq rfl, singleton_inj.mp hlast⟩

variable [LawfulBEq α] {a : α}

theorem splitOn_append_cons (l m : List α) :
    (l ++ a :: m).splitOn a = l.splitOn a ++ m.splitOn a := by
  induction l using record_induction (a := a) with
  | last l hl =>
    rw [splitOn_append_cons_self_of_not_mem hl, splitOn_eq_singleton hl]
    rfl
  | record line rest hline ih =>
    rw [append_assoc, cons_append, splitOn_append_cons_self_of_not_mem hline,
      splitOn_append_cons_self_of_not_mem hline, ih, cons_append]

theorem terminated_of_notMem {l : List α} (h : a ∉ l) : terminated a l = [] := by
  unfold terminated
  rw [splitOn_eq_singleton h]
  rfl

theorem remainder_of_notMem {l : List α} (h : a ∉ l) : remainder a l = l := by
  unfold remainder
  rw [splitOn_eq_singleton h]
  rfl

theorem terminated_append_cons (l m : List α) :
    terminated a (l ++ a :: m) = terminated a l ++ remainder a l :: terminated a m ∧
      remainder a (l ++ a :: m) = remainder a m := by
  refine terminated_remainder_of_splitOn ?_
  rw [splitOn_append_cons, splitOn_eq_terminated_append l, splitOn_eq_terminated_append m,
    append_assoc, append_assoc]
  rfl

/-- A record and what follows it. -/
theorem terminated_of_cons {line : List α} (h : a ∉ line) (rest : List α) :
    terminated a (line ++ a :: rest) = line :: terminated a rest ∧
      remainder a (line ++ a :: rest) = remainder a rest := by
  have hsplit : terminated a (line ++ a :: rest) =
      terminated a line ++ remainder a line :: terminated a rest ∧ _ :=
    terminated_append_cons line rest
  rw [terminated_of_notMem h, remainder_of_notMem h] at hsplit
  exact hsplit

theorem notMem_remainder (l : List α) : a ∉ remainder a l := by
  induction l using record_induction (a := a) with
  | last l hl =>
    rw [remainder_of_notMem hl]
    exact hl
  | record line rest hline ih =>
    rw [(terminated_of_cons hline rest).2]
    exact ih

/-- The stream goes on. -/
theorem terminated_append (l m : List α) :
    terminated a (l ++ m) = terminated a l ++ terminated a (remainder a l ++ m) ∧
      remainder a (l ++ m) = remainder a (remainder a l ++ m) := by
  induction l using record_induction (a := a) with
  | last l hl =>
    rw [terminated_of_notMem hl, remainder_of_notMem hl]
    exact ⟨rfl, rfl⟩
  | record line rest hline ih =>
    obtain ⟨hterminated, hremainder⟩ := terminated_of_cons hline rest
    obtain ⟨hterminated', hremainder'⟩ := terminated_of_cons hline (rest ++ m)
    rw [append_assoc, cons_append, hterminated', hremainder', hterminated, hremainder, ih.1, ih.2]
    exact ⟨rfl, rfl⟩

end Records

end TASQuake.Lib
