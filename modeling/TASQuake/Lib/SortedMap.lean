import Mathlib.Data.List.Pairwise
import Mathlib.Data.List.Nodup
import Mathlib.Order.Lattice

/-!
# Maps sorted by key

The `std::map` of C++: a finite map kept as the list of its entries in strictly increasing
key order, an invariant that every value of `SortedMap` carries (`sorted`).  Only what an
iteration from the front can express is offered: lookup, assignment, and erasing everything
above a key.
-/

namespace TASQuake.Lib

open List

section Entries

variable {κ ν : Type} [LinearOrder κ]

/-- Assign a key in a list of entries sorted by key. -/
def sortedPut (k : κ) (v : ν) : List (κ × ν) → List (κ × ν)
  | [] => [(k, v)]
  | e :: rest =>
    if k < e.1 then (k, v) :: e :: rest
    else if k = e.1 then (k, v) :: rest
    else e :: sortedPut k v rest

theorem mem_sortedPut {k : κ} {v : ν} {l : List (κ × ν)} {e : κ × ν}
    (h : e ∈ sortedPut k v l) : e = (k, v) ∨ e ∈ l := by
  induction l with
  | nil => exact Or.inl (by simpa [sortedPut] using h)
  | cons e' rest ih =>
    simp only [sortedPut] at h
    split at h
    · rcases mem_cons.mp h with h | h
      · exact Or.inl h
      · exact Or.inr h
    · split at h
      · rcases mem_cons.mp h with h | h
        · exact Or.inl h
        · exact Or.inr (mem_cons_of_mem _ h)
      · rcases mem_cons.mp h with h | h
        · exact Or.inr (h ▸ mem_cons_self)
        · rcases ih h with h | h
          · exact Or.inl h
          · exact Or.inr (mem_cons_of_mem _ h)

theorem pairwise_sortedPut {k : κ} {v : ν} {l : List (κ × ν)}
    (h : l.Pairwise fun a b => a.1 < b.1) :
    (sortedPut k v l).Pairwise fun a b => a.1 < b.1 := by
  induction l with
  | nil => simp [sortedPut]
  | cons e rest ih =>
    obtain ⟨he, hr⟩ := pairwise_cons.mp h
    simp only [sortedPut]
    split
    · next hk =>
      refine pairwise_cons.mpr ⟨?_, h⟩
      intro e' he'
      rcases mem_cons.mp he' with rfl | he'
      · exact hk
      · exact lt_trans hk (he e' he')
    · split
      · next hk =>
        refine pairwise_cons.mpr ⟨?_, hr⟩
        intro e' he'
        exact hk ▸ he e' he'
      · next hlt hne =>
        refine pairwise_cons.mpr ⟨?_, ih hr⟩
        intro e' he'
        rcases mem_sortedPut he' with rfl | he'
        · exact lt_of_le_of_ne (not_lt.mp hlt) (Ne.symm hne)
        · exact he e' he'

/-- The entries after an assignment: the assigned one, and those of the other keys. -/
theorem mem_sortedPut_iff {k : κ} {v : ν} {l : List (κ × ν)}
    (h : l.Pairwise fun a b => a.1 < b.1) (e : κ × ν) :
    e ∈ sortedPut k v l ↔ e = (k, v) ∨ (e ∈ l ∧ e.1 ≠ k) := by
  induction l with
  | nil => simp [sortedPut]
  | cons e' rest ih =>
    obtain ⟨he, hr⟩ := pairwise_cons.mp h
    simp only [sortedPut]
    split
    · next hk =>
      have hne : ∀ x ∈ e' :: rest, x.1 ≠ k := by
        intro x hx hxk
        rcases mem_cons.mp hx with rfl | hx
        · exact absurd hxk (ne_of_gt hk)
        · exact absurd hxk (ne_of_gt (lt_trans hk (he x hx)))
      constructor
      · intro hx
        rcases mem_cons.mp hx with hx | hx
        · exact Or.inl hx
        · exact Or.inr ⟨hx, hne e hx⟩
      · rintro (hx | ⟨hx, -⟩)
        · exact hx ▸ mem_cons_self
        · exact mem_cons_of_mem _ hx
    · split
      · next hk =>
        have hne : ∀ x ∈ rest, x.1 ≠ k := fun x hx hxk =>
          absurd (hxk.trans hk) (ne_of_gt (he x hx))
        constructor
        · intro hx
          rcases mem_cons.mp hx with hx | hx
          · exact Or.inl hx
          · exact Or.inr ⟨mem_cons_of_mem _ hx, hne e hx⟩
        · rintro (hx | ⟨hx, hxk⟩)
          · exact hx ▸ mem_cons_self
          · rcases mem_cons.mp hx with rfl | hx
            · exact absurd hk.symm hxk
            · exact mem_cons_of_mem _ hx
      · next hlt hne =>
        rw [mem_cons, ih hr]
        constructor
        · rintro (hx | hx | ⟨hx, hxk⟩)
          · exact Or.inr ⟨hx ▸ mem_cons_self, hx ▸ Ne.symm hne⟩
          · exact Or.inl hx
          · exact Or.inr ⟨mem_cons_of_mem _ hx, hxk⟩
        · rintro (hx | ⟨hx, hxk⟩)
          · exact Or.inr (Or.inl hx)
          · rcases mem_cons.mp hx with hx | hx
            · exact Or.inl hx
            · exact Or.inr (Or.inr ⟨hx, hxk⟩)

/-- In a sorted list, the longest prefix of keys up to `k` holds every key up to `k`. -/
theorem mem_takeWhile_le_iff {k : κ} {l : List (κ × ν)}
    (h : l.Pairwise fun a b => a.1 < b.1) (e : κ × ν) :
    e ∈ l.takeWhile (fun e => decide (e.1 ≤ k)) ↔ e ∈ l ∧ e.1 ≤ k := by
  induction l with
  | nil => simp
  | cons e' rest ih =>
    obtain ⟨he, hr⟩ := pairwise_cons.mp h
    by_cases hk : e'.1 ≤ k
    · rw [takeWhile_cons_of_pos (by simpa using hk), mem_cons, ih hr, mem_cons]
      constructor
      · rintro (rfl | ⟨hx, hxk⟩)
        · exact ⟨Or.inl rfl, hk⟩
        · exact ⟨Or.inr hx, hxk⟩
      · rintro ⟨rfl | hx, hxk⟩
        · exact Or.inl rfl
        · exact Or.inr ⟨hx, hxk⟩
    · rw [takeWhile_cons_of_neg (by simpa using hk)]
      constructor
      · intro hx
        cases hx
      · rintro ⟨hx, hxk⟩
        rcases mem_cons.mp hx with rfl | hx
        · exact absurd hxk hk
        · exact absurd (le_trans (le_of_lt (he e hx)) hxk) hk

end Entries

/-- A finite map whose entries are kept in strictly increasing key order. -/
structure SortedMap (κ ν : Type) [LinearOrder κ] where
  entries : List (κ × ν)
  sorted : entries.Pairwise fun a b => a.1 < b.1

namespace SortedMap

variable {κ ν : Type} [LinearOrder κ]

theorem ext {m m' : SortedMap κ ν} (h : m.entries = m'.entries) : m = m' := by
  cases m
  cases m'
  cases h
  rfl

instance [DecidableEq ν] : DecidableEq (SortedMap κ ν) := fun m m' =>
  if h : m.entries = m'.entries then isTrue (ext h)
  else isFalse (fun he => h (congrArg entries he))

/-- The map with no entry. -/
def empty : SortedMap κ ν := ⟨[], List.Pairwise.nil⟩

/-- The number of entries. -/
def size (m : SortedMap κ ν) : ℕ := m.entries.length

/-- The value stored under a key. -/
def find? (m : SortedMap κ ν) (k : κ) : Option ν :=
  (m.entries.find? fun e => decide (e.1 = k)).map Prod.snd

/-- `m[k] = v`. -/
def put (m : SortedMap κ ν) (k : κ) (v : ν) : SortedMap κ ν :=
  ⟨sortedPut k v m.entries, pairwise_sortedPut m.sorted⟩

/-- Erase every entry from the first key above `k` to the end. -/
def eraseAbove (m : SortedMap κ ν) (k : κ) : SortedMap κ ν :=
  ⟨m.entries.takeWhile fun e => decide (e.1 ≤ k),
    m.sorted.sublist (List.takeWhile_prefix _).sublist⟩

@[simp] theorem entries_empty : (empty : SortedMap κ ν).entries = [] := rfl

theorem mem_put {m : SortedMap κ ν} {k : κ} {v : ν} {e : κ × ν} :
    e ∈ (m.put k v).entries ↔ e = (k, v) ∨ (e ∈ m.entries ∧ e.1 ≠ k) :=
  mem_sortedPut_iff m.sorted e

theorem mem_eraseAbove {m : SortedMap κ ν} {k : κ} {e : κ × ν} :
    e ∈ (m.eraseAbove k).entries ↔ e ∈ m.entries ∧ e.1 ≤ k :=
  mem_takeWhile_le_iff m.sorted e

/-- A key has one entry. -/
theorem entry_unique {m : SortedMap κ ν} {e e' : κ × ν} (h : e ∈ m.entries)
    (h' : e' ∈ m.entries) (hk : e.1 = e'.1) : e = e' := by
  have hn : (m.entries.map Prod.fst).Nodup := by
    refine (pairwise_map.mpr ?_ : List.Pairwise (· ≠ ·) _)
    exact m.sorted.imp fun hlt => ne_of_lt hlt
  exact inj_on_of_nodup_map hn h h' hk

theorem find?_eq_some_iff {m : SortedMap κ ν} {k : κ} {v : ν} :
    m.find? k = some v ↔ (k, v) ∈ m.entries := by
  constructor
  · intro h
    obtain ⟨e, he, rfl⟩ := Option.map_eq_some_iff.mp h
    have hk : e.1 = k := by simpa using find?_some he
    exact hk ▸ mem_of_find?_eq_some he
  · intro h
    cases hf : m.entries.find? fun e => decide (e.1 = k) with
    | none =>
      have := find?_eq_none.mp hf (k, v) h
      simp at this
    | some e =>
      have hk : e.1 = k := by simpa using find?_some hf
      have he : e = (k, v) := entry_unique (mem_of_find?_eq_some hf) h hk
      simp [find?, hf, he]

end SortedMap

end TASQuake.Lib
