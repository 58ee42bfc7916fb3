import Mathlib.Data.List.Forall2
import Mathlib.Data.List.NodupEquivFin

/-!
# Matching a list inside another one

One pass over a list that looks for the elements of another list in turn.  It finds everything
whenever there is a way to do so (`unmatched_eq_nil_iff`): to take the first possible partner never
spoils a later choice.
-/

namespace TASQuake.Lib

open List

variable {α β : Type}

/-- The elements of the first list that a pass over the second one does not find. -/
def unmatched (r : α → β → Prop) [∀ a b, Decidable (r a b)] : List α → List β → List α
  | l, [] => l
  | [], _ => []
  | a :: l, b :: m => if r a b then unmatched r l m else unmatched r (a :: l) m

/-! ## The pass -/

/-- Giving up the first element of the list to be found leaves less to find. -/
theorem sublistForall₂_tail {r : α → β → Prop} {a : α} {l : List α} {m : List β}
    (h : List.SublistForall₂ r (a :: l) m) : List.SublistForall₂ r l m := by
  induction m with
  | nil => cases h
  | cons b m ih =>
    cases h with
    | cons _ htail => exact htail.cons_right
    | cons_right hskip => exact (ih hskip).cons_right

theorem sublistForall₂_imp {r r' : α → β → Prop} (himp : ∀ a b, r a b → r' a b)
    {l : List α} {m : List β} (h : List.SublistForall₂ r l m) : List.SublistForall₂ r' l m := by
  induction h with
  | nil => exact .nil
  | cons hr _ ih => exact .cons (himp _ _ hr) ih
  | cons_right _ ih => exact ih.cons_right

section Pass

variable {r : α → β → Prop} [∀ a b, Decidable (r a b)]

/-- The pass finds every element exactly when they can all be found in order. -/
theorem unmatched_eq_nil_iff (l : List α) (m : List β) :
    unmatched r l m = [] ↔ List.SublistForall₂ r l m := by
  induction m generalizing l with
  | nil =>
    cases l with
    | nil => exact iff_of_true rfl .nil
    | cons a l => exact iff_of_false (fun h => (nomatch h)) (fun h => (nomatch h))
  | cons b m ih =>
    cases l with
    | nil => exact iff_of_true rfl .nil
    | cons a l =>
      unfold unmatched
      by_cases hr : r a b
      · -- a way that does not use `b` for `a` can be changed into one that does
        rw [if_pos hr, ih l]
        constructor
        · exact fun h => .cons hr h
        · intro h
          cases h with
          | cons _ htail => exact htail
          | cons_right hskip => exact sublistForall₂_tail hskip
      · rw [if_neg hr, ih (a :: l)]
        constructor
        · exact fun h => h.cons_right
        · intro h
          cases h with
          | cons hab _ => exact absurd hab hr
          | cons_right hskip => exact hskip

end Pass

/-! ## Positions -/

/-- The same with the positions of the partners written out. -/
theorem sublistForall₂_iff_strictMono {r : α → β → Prop} {l : List α} {m : List β} :
    List.SublistForall₂ r l m ↔
      ∃ i : Fin l.length → Fin m.length, StrictMono i ∧ ∀ k, r (l.get k) (m.get (i k)) := by
  rw [sublistForall₂_iff]
  constructor
  · rintro ⟨partners, hforall, hsub⟩
    obtain ⟨hlen, hget⟩ := forall₂_iff_get.mp hforall
    obtain ⟨f, hf⟩ := sublist_iff_exists_fin_orderEmbedding_get_eq.mp hsub
    refine ⟨fun k => f (k.cast hlen), fun k k' hlt => f.strictMono hlt, fun k => ?_⟩
    rw [← hf]
    exact hget k k.isLt (hlen ▸ k.isLt)
  · rintro ⟨i, hmono, hr⟩
    refine ⟨ofFn fun k => m.get (i k), forall₂_iff_get.mpr ⟨?_, ?_⟩, ?_⟩
    · rw [length_ofFn]
    · intro k hk hk'
      rw [get_ofFn]
      exact hr ⟨k, hk⟩
    · have hlen : (ofFn fun k => m.get (i k)).length = l.length := length_ofFn
      refine sublist_iff_exists_fin_orderEmbedding_get_eq.mpr
        ⟨OrderEmbedding.ofStrictMono (fun k => i (k.cast hlen)) fun k k' hlt => hmono hlt,
          fun k => ?_⟩
      rw [get_ofFn]
      rfl

end TASQuake.Lib
