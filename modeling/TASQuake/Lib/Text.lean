import Mathlib.Data.List.DropRight
import Mathlib.Data.List.Chain

/-!
# Lines of text

Cutting the cells that satisfy a predicate off both ends of a list (`trim`), and cutting a
list before two equal cells in a row (`cutAt`), as a line is trimmed and its comment removed.
A run of cells that satisfy a predicate, as long as possible (`IsSpan`), is what a scanner reads.
-/

namespace TASQuake.Lib

open List

variable {α : Type}

/-! ## Trimming -/

/-- Drop the cells that satisfy `p` from the end, then from the front. -/
def trim (p : α → Bool) (l : List α) : List α := (l.rdropWhile p).dropWhile p

/-- Neither the first nor the last cell satisfies `p`. -/
structure Trimmed (p : α → Bool) (l : List α) : Prop where
  head : ∀ c ∈ l.head?, p c = false
  last : ∀ c ∈ l.getLast?, p c = false

theorem trim_isInfix (p : α → Bool) (l : List α) : trim p l <:+: l :=
  (List.dropWhile_suffix p).isInfix.trans ( List.rdropWhile_prefix p l).isInfix

theorem trimmed_trim (p : α → Bool) (l : List α) : Trimmed p (trim p l) := by
  constructor
  · intro c hc
    have hnot := head?_dropWhile_not p (l.rdropWhile p)
    unfold trim at hc
    rw [Option.mem_def.mp hc] at hnot
    simpa using hnot
  · intro c hc
    obtain ⟨before, hbefore⟩ := List.dropWhile_suffix p (l := l.rdropWhile p)
    have hlast : c ∈ (l.rdropWhile p).getLast? := by
      rw [← hbefore]
      exact mem_getLast?_append_of_mem_getLast? hc
    have hne : l.rdropWhile p ≠ [] := by
      intro h
      rw [h] at hlast
      cases hlast
    have hnot := rdropWhile_last_not p l hne
    rw [getLast?_eq_some_getLast hne] at hlast
    cases hlast
    simpa using hnot

theorem trim_eq_self {p : α → Bool} {l : List α} (h : Trimmed p l) : trim p l = l := by
  cases l with
  | nil => rfl
  | cons a l =>
    have hlast : (a :: l).rdropWhile p = a :: l := by
      rw [rdropWhile_eq_self_iff]
      intro hne
      have hnot := h.last _ (getLast?_eq_some_getLast hne)
      simpa using hnot
    unfold trim
    rw [hlast, dropWhile_cons_of_neg]
    simpa using h.head a rfl

/-- Cells in front of a trimmed list are cut off. -/
theorem trim_cons_of_pos {p : α → Bool} {a : α} {l : List α} (ha : p a = true) (hne : l ≠ [])
    (h : Trimmed p l) : trim p (a :: l) = l := by
  have hlast : (a :: l).rdropWhile p = a :: l := by
    rw [rdropWhile_eq_self_iff]
    intro hcons
    rw [getLast_cons hne]
    have hnot := h.last _ (getLast?_eq_some_getLast hne)
    simpa using hnot
  unfold trim
  rw [hlast, dropWhile_cons_of_pos ha]
  cases l with
  | nil => exact absurd rfl hne
  | cons b l =>
    rw [dropWhile_cons_of_neg]
    simpa using h.head b rfl

/-- Nothing is dropped from a beginning whose last cell is kept. -/
theorem rdropWhile_append_of_last {p : α → Bool} {l : List α}
    (hlast : ∀ c ∈ l.getLast?, p c = false) (l' : List α) :
    (l ++ l').rdropWhile p = l ++ l'.rdropWhile p := by
  have hkept : l.rdropWhile p = l := by
    rw [rdropWhile_eq_self_iff]
    intro hne
    simpa using hlast _ (getLast?_eq_some_getLast hne)
  unfold rdropWhile at hkept ⊢
  rw [reverse_append, dropWhile_append]
  split
  · next hempty =>
    rw [hkept, isEmpty_iff.mp hempty, reverse_nil, append_nil]
  · rw [reverse_append, reverse_reverse]

theorem trimmed_of_forall {p : α → Bool} {l : List α} (h : ∀ c ∈ l, p c = false) :
    Trimmed p l :=
  ⟨fun c hc => h c (mem_of_mem_head? hc), fun c hc => h c (mem_of_mem_getLast? hc)⟩

/-! ## Cutting before two equal cells -/

/-- The list up to the first place where `a` stands twice in a row. -/
def cutAt [DecidableEq α] (a : α) : List α → List α
  | [] => []
  | [b] => [b]
  | b :: c :: l => if b = a ∧ c = a then [] else b :: cutAt a (c :: l)

/-- Nowhere stands `a` twice in a row. -/
def NoDouble (a : α) (l : List α) : Prop := l.IsChain fun b c => ¬ (b = a ∧ c = a)

section CutAt

variable [DecidableEq α] {a : α}

theorem cutAt_isPrefix (l : List α) : cutAt a l <+: l := by
  induction l using cutAt.induct a with
  | case1 => exact List.nil_prefix
  | case2 b => exact prefix_refl _
  | case3 b c l h =>
    rw [cutAt, if_pos h]
    exact List.nil_prefix
  | case4 b c l h ih =>
    rw [cutAt, if_neg h]
    exact cons_prefix_cons.mpr ⟨rfl, ih⟩

theorem noDouble_cutAt (l : List α) : NoDouble a (cutAt a l) := by
  induction l using cutAt.induct a with
  | case1 => exact List.IsChain.nil
  | case2 b => exact List.IsChain.singleton b
  | case3 b c l h =>
    rw [cutAt, if_pos h]
    exact List.IsChain.nil
  | case4 b c l h ih =>
    rw [cutAt, if_neg h]
    refine List.IsChain.cons ih fun d hd => ?_
    -- the first cell of what is kept of the rest is the first cell of the rest
    have hprefix := cutAt_isPrefix (a := a) (c :: l)
    cases hcut : cutAt a (c :: l) with
    | nil =>
      rw [hcut] at hd
      cases hd
    | cons e rest =>
      rw [hcut] at hd hprefix
      cases hd
      rw [(cons_prefix_cons.mp hprefix).1]
      exact h

theorem cutAt_eq_self {l : List α} (h : NoDouble a l) : cutAt a l = l := by
  induction l using cutAt.induct a with
  | case1 => rfl
  | case2 b => rfl
  | case3 b c l hbc => exact absurd hbc (isChain_cons_cons.mp h).1
  | case4 b c l hbc ih => rw [cutAt, if_neg hbc, ih (isChain_cons_cons.mp h).2]

theorem cutAt_append {l : List α} (h : a ∉ l) (l' : List α) :
    cutAt a (l ++ l') = l ++ cutAt a l' := by
  induction l with
  | nil => rfl
  | cons b l ih =>
    rw [mem_cons, not_or] at h
    have hrest := ih h.2
    cases hl : l ++ l' with
    | nil =>
      obtain ⟨rfl, rfl⟩ := append_eq_nil_iff.mp hl
      rfl
    | cons c m =>
      rw [hl] at hrest
      rw [cons_append, hl, cutAt, if_neg fun hbc => h.1 hbc.1.symm, hrest, cons_append]

end CutAt

theorem NoDouble.of_isInfix {a : α} {l l' : List α} (h : NoDouble a l) (hl : l' <:+: l) :
    NoDouble a l' := List.IsChain.infix h hl

/-- Lists joined by a cell that is not `a`. -/
theorem NoDouble.join {a b : α} {l l' : List α} (hb : b ≠ a) (h : NoDouble a l)
    (h' : NoDouble a l') : NoDouble a (l ++ b :: l') := by
  refine isChain_append.mpr ⟨h, List.IsChain.cons h' fun c _ hc => hb hc.1, ?_⟩
  intro c _ d hd hcd
  cases hd
  exact hb hcd.2

theorem noDouble_of_notMem {a : α} {l : List α} (h : a ∉ l) : NoDouble a l := by
  induction l with
  | nil => exact List.IsChain.nil
  | cons b l ih =>
    refine List.IsChain.cons (ih fun hm => h (mem_cons_of_mem _ hm)) fun c _ hbc => ?_
    exact h (hbc.1 ▸ mem_cons_self)

/-! ## Runs -/

/-- A list starts with a run of cells that satisfy `p`, which ends before `rest`. -/
structure IsSpan (p : α → Bool) (l run rest : List α) : Prop where
  eq_append : l = run ++ rest
  all : ∀ c ∈ run, p c = true
  ends : ∀ c ∈ rest.head?, p c = false

theorem isSpan_iff {p : α → Bool} {l run rest : List α} :
    IsSpan p l run rest ↔ run = l.takeWhile p ∧ rest = l.dropWhile p := by
  constructor
  · rintro ⟨rfl, hall, hends⟩
    rw [takeWhile_append_of_pos hall, dropWhile_append_of_pos hall]
    cases rest with
    | nil => simp
    | cons c rest =>
      have hc : ¬ p c = true := by simp [hends c rfl]
      rw [takeWhile_cons_of_neg hc, dropWhile_cons_of_neg hc, append_nil]
      exact ⟨rfl, rfl⟩
  · rintro ⟨rfl, rfl⟩
    refine ⟨takeWhile_append_dropWhile.symm, fun c hc => mem_takeWhile_imp hc, ?_⟩
    intro c hc
    have hnot := head?_dropWhile_not p l
    rw [Option.mem_def.mp hc] at hnot
    simpa using hnot

end TASQuake.Lib
