import TASQuake.Lib.KeyedList
import Mathlib.Data.List.Forall2
import Mathlib.Data.List.Nodup

/-!
# Lists as maps from keys

A vector whose elements carry pairwise distinct keys is a finite map: `entryAt key k` is the element
with key `k`.  Two lists in strictly increasing key order are related element by element if and only
if they are related key by key (`forall₂_iff_entryAt`).
-/

namespace TASQuake.Lib

open List

section Lookup

variable {α κ : Type} [DecidableEq κ] {key : α → κ} {l : List α}

/-- The element with a key. -/
def entryAt (key : α → κ) (k : κ) (l : List α) : Option α := l.find? fun a => decide (key a = k)

theorem entryAt_cons (a : α) (l : List α) (k : κ) :
    entryAt key k (a :: l) = if key a = k then some a else entryAt key k l := by
  unfold entryAt
  by_cases h : key a = k
  · simp [h]
  · simp [h]

theorem entryAt_eq_none_iff {k : κ} : entryAt key k l = none ↔ ∀ a ∈ l, key a ≠ k := by
  simp [entryAt]

theorem key_of_entryAt {k : κ} {a : α} (h : entryAt key k l = some a) : key a = k :=
  of_decide_eq_true (p := key a = k) (find?_some (p := fun a => decide (key a = k)) h)

theorem mem_of_entryAt {k : κ} {a : α} (h : entryAt key k l = some a) : a ∈ l :=
  mem_of_find?_eq_some h

/-- With distinct keys, the element found is the only one with its key. -/
theorem entryAt_of_mem (hn : (l.map key).Nodup) {a : α} (ha : a ∈ l) :
    entryAt key (key a) l = some a := by
  induction l with
  | nil => cases ha
  | cons b l ih =>
    rw [map_cons, nodup_cons] at hn
    rw [entryAt_cons]
    rcases mem_cons.mp ha with rfl | ha
    · rw [if_pos rfl]
    · rw [if_neg, ih hn.2 ha]
      intro hkey
      exact hn.1 (hkey ▸ mem_map_of_mem ha)

theorem entryAt_map {f : α → α} (hf : ∀ a, key (f a) = key a) (k : κ) :
    entryAt key k (l.map f) = (entryAt key k l).map f := by
  unfold entryAt
  rw [find?_map]
  congr 2
  funext a
  simp [hf]

/-- Erasing elements erases their keys. -/
theorem entryAt_filter (hn : (l.map key).Nodup) (p : α → Bool) (k : κ) :
    entryAt key k (l.filter p) = (entryAt key k l).filter p := by
  induction l with
  | nil => rfl
  | cons a l ih =>
    rw [map_cons, nodup_cons] at hn
    rw [entryAt_cons, filter_cons]
    by_cases hk : key a = k
    · have hnone : entryAt key k (l.filter p) = none := by
        apply entryAt_eq_none_iff.mpr
        intro b hb hbk
        apply hn.1
        rw [hk, ← hbk]
        exact mem_map_of_mem (mem_of_mem_filter hb)
      rw [if_pos hk]
      by_cases hp : p a = true
      · simp [hp, entryAt_cons, hk, Option.filter]
      · simp [hp, hnone, Option.filter]
    · rw [if_neg hk, ← ih hn.2]
      split
      · rw [entryAt_cons, if_neg hk]
      · rfl

/-- Rewriting the element at an index is rewriting the element with its key. -/
theorem modify_eq_map (hn : (l.map key).Nodup) {i : ℕ} {k : κ}
    (hi : (l[i]?).map key = some k) (f : α → α) :
    l.modify i f = l.map fun a => if key a = k then f a else a := by
  induction l generalizing i with
  | nil => simp at hi
  | cons a l ih =>
    rw [map_cons, nodup_cons] at hn
    cases i with
    | zero =>
      have hk : key a = k := by simpa using hi
      have hrest : l.map (fun b => if key b = k then f b else b) = l := by
        conv_rhs => rw [← map_id l]
        apply map_congr_left
        intro b hb
        rw [if_neg, id]
        intro hbk
        exact hn.1 (hk ▸ hbk ▸ mem_map_of_mem hb)
      rw [modify_zero_cons, map_cons, if_pos hk, hrest]
    | succ i =>
      have hi' : (l[i]?).map key = some k := by simpa using hi
      have hne : key a ≠ k := by
        obtain ⟨b, hb, hbk⟩ := Option.map_eq_some_iff.mp hi'
        rintro rfl
        exact hn.1 (hbk ▸ mem_map_of_mem (mem_of_getElem? hb))
      rw [modify_succ_cons, map_cons, if_neg hne, ih hn.2 hi']

theorem entryAt_insertIdx {a : α} {i : ℕ} (hi : i ≤ l.length)
    (hfresh : ∀ b ∈ l, key b ≠ key a) (k : κ) :
    entryAt key k (l.insertIdx i a) = if key a = k then some a else entryAt key k l := by
  induction l generalizing i with
  | nil =>
    have hzero : i = 0 := by simpa using hi
    subst hzero
    rw [insertIdx_zero, entryAt_cons]
  | cons b l ih =>
    cases i with
    | zero => rw [insertIdx_zero, entryAt_cons]
    | succ i =>
      have hrest := ih (i := i) (by simpa using hi) fun c hc => hfresh c (mem_cons_of_mem _ hc)
      rw [insertIdx_succ_cons, entryAt_cons, entryAt_cons, hrest]
      have hb := hfresh b mem_cons_self
      by_cases hk : key b = k
      · have ha : key a ≠ k := fun ha => hb (hk.trans ha.symm)
        simp [hk, ha]
      · simp [hk]

end Lookup

section Strict

variable {α κ : Type} [LinearOrder κ] {key : α → κ}

theorem nodup_of_strict {l : List α} (h : l.Pairwise fun a b => key a < key b) :
    (l.map key).Nodup := by
  unfold List.Nodup
  rw [pairwise_map]
  exact h.imp fun hab => hab.ne

theorem strict_of_sorted {l : List α} (h : KeySorted key l) (hn : (l.map key).Nodup) :
    l.Pairwise fun a b => key a < key b := by
  unfold List.Nodup at hn
  rw [pairwise_map] at hn
  exact (pairwise_and_iff.mpr ⟨h, hn⟩).imp fun hab => lt_of_le_of_ne hab.1 hab.2

/-- In a strictly increasing list the head is the element with the least key. -/
theorem entryAt_tail {a : α} {l : List α} (h : (a :: l).Pairwise fun a b => key a < key b) (k : κ) :
    entryAt key k l = if key a = k then none else entryAt key k (a :: l) := by
  obtain ⟨ha, -⟩ := pairwise_cons.mp h
  by_cases hk : key a = k
  · rw [if_pos hk]
    apply entryAt_eq_none_iff.mpr
    intro b hb
    exact hk ▸ (ha b hb).ne'
  · rw [if_neg hk, entryAt_cons, if_neg hk]

variable {R : α → α → Prop}

theorem head_le_of_entryAt {b : α} {l : List α} {k : κ}
    (h : (b :: l).Pairwise fun a b => key a < key b) (hfound : (entryAt key k (b :: l)).isSome) :
    key b ≤ k := by
  obtain ⟨c, hc⟩ := Option.isSome_iff_exists.mp hfound
  rw [← key_of_entryAt hc]
  rcases mem_cons.mp (mem_of_entryAt hc) with rfl | hmem
  · exact le_refl _
  · exact ((pairwise_cons.mp h).1 c hmem).le

theorem isSome_eq_of_rel {x y : Option α} (h : Option.Rel R x y) : x.isSome = y.isSome := by
  cases h <;> rfl

/-- **Comparing two maps**: element by element is key by key. -/
theorem forall₂_iff_entryAt (hR : ∀ a b, R a b → key a = key b) {l l' : List α}
    (h : l.Pairwise fun a b => key a < key b) (h' : l'.Pairwise fun a b => key a < key b) :
    List.Forall₂ R l l' ↔ ∀ k, Option.Rel R (entryAt key k l) (entryAt key k l') := by
  constructor
  · intro hall k
    induction hall with
    | nil => exact .none
    | cons hab _ ih =>
      rw [entryAt_cons, entryAt_cons, ← hR _ _ hab]
      split
      · exact .some hab
      · exact ih (pairwise_cons.mp h).2 (pairwise_cons.mp h').2
  · intro hrel
    induction l generalizing l' with
    | nil =>
      cases l' with
      | nil => exact .nil
      | cons b l' =>
        have hb := hrel (key b)
        rw [entryAt_cons, if_pos rfl] at hb
        cases hb
    | cons a l ih =>
      cases l' with
      | nil =>
        have ha := hrel (key a)
        rw [entryAt_cons, if_pos rfl] at ha
        cases ha
      | cons b l' =>
        have hle : key b ≤ key a := by
          apply head_le_of_entryAt h'
          rw [← isSome_eq_of_rel (hrel (key a)), entryAt_cons, if_pos rfl]
          rfl
        have hge : key a ≤ key b := by
          apply head_le_of_entryAt h
          rw [isSome_eq_of_rel (hrel (key b)), entryAt_cons, if_pos rfl]
          rfl
        have hkey : key b = key a := le_antisymm hle hge
        have hhead := hrel (key a)
        rw [entryAt_cons, if_pos rfl, entryAt_cons, if_pos hkey] at hhead
        cases hhead with
        | some hab =>
          refine .cons hab (ih (pairwise_cons.mp h).2 (pairwise_cons.mp h').2 fun k => ?_)
          rw [entryAt_tail h, entryAt_tail h', hkey]
          split
          · exact .none
          · exact hrel k

end Strict

end TASQuake.Lib
