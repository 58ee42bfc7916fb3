import Mathlib.Data.List.Pairwise
import Mathlib.Data.List.InsertIdx
import Mathlib.Data.List.TakeWhile
import Mathlib.Order.Lattice

/-!
# Lists ordered by a key

`KeySorted` says that the keys of a vector do not decrease; `below k` is the part of the list whose
keys are below `k`.  The first section says how the vector operations keep the order, the second
when they leave the part below `k` alone, in any list.
-/

namespace TASQuake.Lib

open List

variable {α κ : Type} [LinearOrder κ]

/-- The keys do not decrease along the list. -/
def KeySorted (key : α → κ) (l : List α) : Prop :=
  l.Pairwise fun a b => key a ≤ key b

/-- The elements with a key below `k`, in order. -/
def below (key : α → κ) (k : κ) (l : List α) : List α :=
  l.filter fun a => decide (key a < k)

/-! ## Positions found by a scan -/

/-- Inserting at the first position where `p` holds splits the list there. -/
theorem insertIdx_findIdx (p : α → Bool) (a : α) (l : List α) :
    l.insertIdx (l.findIdx p) a =
      l.takeWhile (fun b => !p b) ++ a :: l.dropWhile (fun b => !p b) := by
  induction l with
  | nil => rfl
  | cons b l ih =>
    by_cases hp : p b = true
    · simp [findIdx_cons, hp]
    · have hp' : p b = false := by simpa using hp
      simp [findIdx_cons, hp', ih]

omit [LinearOrder κ] in
theorem map_modify_of_key (key : α → κ) (f : α → α) (hf : ∀ a, key (f a) = key a) (i : ℕ)
    (l : List α) : (l.modify i f).map key = l.map key := by
  induction l generalizing i with
  | nil => simp
  | cons b l ih =>
    cases i with
    | zero => simp [hf]
    | succ i => simp [ih]

/-! ## One element set apart -/

theorem modify_append_cons (before after : List α) (a : α) (f : α → α) :
    (before ++ a :: after).modify before.length f = before ++ f a :: after := by
  induction before with
  | nil => rfl
  | cons c before ih =>
    rw [cons_append, length_cons, modify_succ_cons, ih, cons_append]

theorem getElem?_append_cons (before after : List α) (a : α) :
    (before ++ a :: after)[before.length]? = some a := by
  simp

/-- The first element that passes a test. -/
theorem findIdx_append_cons {p : α → Bool} {before : List α} (hbefore : ∀ b ∈ before, p b = false)
    {a : α} (ha : p a = true) (after : List α) :
    (before ++ a :: after).findIdx p = before.length := by
  have hnone := findIdx_eq_length.mpr hbefore
  rw [findIdx_append, findIdx_cons, hnone]
  simp [ha]

theorem split_at_getElem? {l : List α} {i : ℕ} {a : α} (h : l[i]? = some a) :
    ∃ before after, l = before ++ a :: after ∧ before.length = i := by
  obtain ⟨hlt, rfl⟩ := List.getElem?_eq_some_iff.mp h
  refine ⟨l.take i, l.drop (i + 1), ?_, ?_⟩
  · rw [getElem_cons_drop, take_append_drop]
  · rw [length_take]
    omega

/-! ## Ordered lists -/

section Sorted

variable {key : α → κ}

theorem keySorted_iff_map (l : List α) :
    KeySorted key l ↔ (l.map key).Pairwise (· ≤ ·) := by
  unfold KeySorted
  rw [pairwise_map]

theorem KeySorted.sublist {l l' : List α} (h : KeySorted key l) (hs : l'.Sublist l) :
    KeySorted key l' :=
  List.Pairwise.sublist hs h

theorem keySorted_of_map_eq {l l' : List α} (h : KeySorted key l)
    (hm : l'.map key = l.map key) : KeySorted key l' := by
  rw [keySorted_iff_map] at h ⊢
  rw [hm]
  exact h

theorem keySorted_append {l l' : List α} :
    KeySorted key (l ++ l') ↔
      KeySorted key l ∧ KeySorted key l' ∧ ∀ a ∈ l, ∀ b ∈ l', key a ≤ key b :=
  pairwise_append

theorem KeySorted.getElem_le {l : List α} (h : KeySorted key l) {i j : ℕ} (hij : i ≤ j)
    (hj : j < l.length) : key l[i] ≤ key l[j] := by
  rcases hij.eq_or_lt with rfl | hlt
  · exact le_refl _
  · exact pairwise_iff_getElem.mp h i j (by omega) hj hlt

theorem KeySorted.le_of_getLast? {l : List α} (h : KeySorted key l) {a : α}
    (ha : l.getLast? = some a) : ∀ b ∈ l, key b ≤ key a := by
  obtain ⟨l', rfl⟩ := getLast?_eq_some_iff.mp ha
  obtain ⟨-, -, hle⟩ := keySorted_append.mp h
  intro b hb
  rcases mem_append.mp hb with hb | hb
  · exact hle b hb a (mem_singleton_self a)
  · rw [mem_singleton.mp hb]

/-- In an ordered list the elements before the first one at or above `c` are the elements
below `c`. -/
theorem KeySorted.takeWhile_eq_below {l : List α} (h : KeySorted key l) (c : κ) :
    l.takeWhile (fun a => decide (key a < c)) = below key c l := by
  induction l with
  | nil => rfl
  | cons a l ih =>
    obtain ⟨ha, hl⟩ := pairwise_cons.mp h
    unfold below
    by_cases hc : key a < c
    · rw [takeWhile_cons_of_pos (by simpa using hc), filter_cons_of_pos (by simpa using hc), ih hl]
      rfl
    · rw [takeWhile_cons_of_neg (by simpa using hc), filter_cons_of_neg (by simpa using hc)]
      refine (filter_eq_nil_iff.mpr fun b hb => ?_).symm
      have hab : key a ≤ key b := ha b hb
      simpa using (not_lt.mp hc).trans hab

/-- An ordered list is its part below `c` followed by the rest. -/
theorem KeySorted.below_append_filter {l : List α} (h : KeySorted key l) (c : κ) :
    below key c l ++ l.filter (fun a => decide (c ≤ key a)) = l := by
  induction l with
  | nil => rfl
  | cons a l ih =>
    obtain ⟨ha, hl⟩ := pairwise_cons.mp h
    unfold below at ih ⊢
    by_cases hc : key a < c
    · rw [filter_cons_of_pos (by simpa using hc), filter_cons_of_neg (by simpa using hc),
        cons_append, ih hl]
    · have hge : c ≤ key a := not_lt.mp hc
      have hnil : (a :: l).filter (fun b => decide (key b < c)) = [] := by
        refine filter_eq_nil_iff.mpr fun b hb => ?_
        rcases mem_cons.mp hb with rfl | hb
        · simpa using hge
        · simpa using hge.trans (ha b hb)
      have hall : (a :: l).filter (fun b => decide (c ≤ key b)) = a :: l := by
        refine filter_eq_self.mpr fun b hb => ?_
        rcases mem_cons.mp hb with rfl | hb
        · simpa using hge
        · simpa using hge.trans (ha b hb)
      rw [hnil, hall, nil_append]

/-- An element put between the elements at or below it and those at or above it. -/
theorem KeySorted.insert_between {l l' : List α} {a : α} (h : KeySorted key (l ++ l'))
    (hl : ∀ b ∈ l, key b ≤ key a) (hl' : ∀ b ∈ l', key a ≤ key b) :
    KeySorted key (l ++ a :: l') := by
  obtain ⟨h₁, h₂, h₃⟩ := keySorted_append.mp h
  refine keySorted_append.mpr ⟨h₁, pairwise_cons.mpr ⟨hl', h₂⟩, ?_⟩
  intro b hb c hc
  rcases mem_cons.mp hc with rfl | hc
  · exact hl b hb
  · exact h₃ b hb c hc

/-- Inserting at the first position where `p` holds keeps the order, for a `p` that only holds
at or above the new key and only fails at or below it. -/
theorem KeySorted.insertIdx_findIdx {l : List α} (h : KeySorted key l) {p : α → Bool} {a : α}
    (hpos : ∀ b, p b = true → key a ≤ key b) (hneg : ∀ b, p b = false → key b ≤ key a) :
    KeySorted key (l.insertIdx (l.findIdx p) a) := by
  rw [Lib.insertIdx_findIdx]
  have hsplit : KeySorted key (l.takeWhile (fun b => !p b) ++ l.dropWhile fun b => !p b) := by
    rwa [takeWhile_append_dropWhile]
  refine hsplit.insert_between ?_ ?_
  · intro b hb
    have hb' := mem_takeWhile_imp hb
    exact hneg b (by simpa using hb')
  · intro b hb
    cases hd : l.dropWhile (fun b => !p b) with
    | nil =>
      rw [hd] at hb
      cases hb
    | cons c rest =>
      -- `p` holds of the first element dropped; the others are at or above that one
      have hc : p c = true := by
        have hne : l.dropWhile (fun b => !p b) ≠ [] := by simp [hd]
        have h0 := head_dropWhile_not (fun b => !p b) hne
        simpa [hd] using h0
      rw [hd] at hb hsplit
      rcases mem_cons.mp hb with rfl | hb
      · exact hpos _ hc
      · have hcb := (pairwise_cons.mp (keySorted_append.mp hsplit).2.1).1 b hb
        exact (hpos c hc).trans hcb

end Sorted

/-! ## The part below a key -/

section Below

variable {key : α → κ} {k : κ}

@[simp] theorem below_nil : below key k [] = [] := rfl

theorem below_append (l l' : List α) :
    below key k (l ++ l') = below key k l ++ below key k l' :=
  filter_append ..

theorem below_cons_of_le {a : α} (l : List α) (h : k ≤ key a) :
    below key k (a :: l) = below key k l :=
  filter_cons_of_neg (by simpa using h)

theorem below_cons_of_lt {a : α} (l : List α) (h : key a < k) :
    below key k (a :: l) = a :: below key k l :=
  filter_cons_of_pos (by simpa using h)

theorem below_eq_nil {l : List α} (h : ∀ a ∈ l, k ≤ key a) : below key k l = [] :=
  filter_eq_nil_iff.mpr fun a ha => by simpa using h a ha

theorem below_insertIdx {a : α} (h : k ≤ key a) (i : ℕ) (l : List α) :
    below key k (l.insertIdx i a) = below key k l := by
  induction l generalizing i with
  | nil =>
    cases i with
    | zero => exact below_cons_of_le [] h
    | succ i => rfl
  | cons b l ih =>
    cases i with
    | zero => exact below_cons_of_le _ h
    | succ i =>
      rw [insertIdx_succ_cons]
      by_cases hb : key b < k
      · rw [below_cons_of_lt _ hb, below_cons_of_lt _ hb, ih]
      · rw [below_cons_of_le _ (not_lt.mp hb), below_cons_of_le _ (not_lt.mp hb), ih]

theorem below_eraseIdx {i : ℕ} {l : List α} (h : ∀ a, l[i]? = some a → k ≤ key a) :
    below key k (l.eraseIdx i) = below key k l := by
  induction l generalizing i with
  | nil => rfl
  | cons b l ih =>
    cases i with
    | zero => exact (below_cons_of_le l (h b rfl)).symm
    | succ i =>
      rw [eraseIdx_cons_succ]
      have hi := ih fun a ha => h a (by simpa using ha)
      by_cases hb : key b < k
      · rw [below_cons_of_lt _ hb, below_cons_of_lt _ hb, hi]
      · rw [below_cons_of_le _ (not_lt.mp hb), below_cons_of_le _ (not_lt.mp hb), hi]

theorem below_modify {i : ℕ} {f : α → α} {l : List α}
    (h : ∀ a, l[i]? = some a → k ≤ key a ∧ k ≤ key (f a)) :
    below key k (l.modify i f) = below key k l := by
  induction l generalizing i with
  | nil => simp
  | cons b l ih =>
    cases i with
    | zero =>
      obtain ⟨hb, hfb⟩ := h b rfl
      rw [modify_zero_cons, below_cons_of_le _ hb, below_cons_of_le _ hfb]
    | succ i =>
      rw [modify_succ_cons]
      have hi := ih fun a ha => h a (by simpa using ha)
      by_cases hb : key b < k
      · rw [below_cons_of_lt _ hb, below_cons_of_lt _ hb, hi]
      · rw [below_cons_of_le _ (not_lt.mp hb), below_cons_of_le _ (not_lt.mp hb), hi]

/-- Two lists that agree up to a position, and are at or above `k` from there on, agree
below `k`. -/
theorem below_eq_of_take_eq {l l' : List α} (i : ℕ) (ht : l'.take i = l.take i)
    (h : ∀ a ∈ l.drop i, k ≤ key a) (h' : ∀ a ∈ l'.drop i, k ≤ key a) :
    below key k l' = below key k l := by
  rw [← take_append_drop i l, ← take_append_drop i l', below_append, below_append,
    below_eq_nil h, below_eq_nil h', ht]

/-- Dropping only elements at or above `k` keeps the part below. -/
theorem below_filter {p : α → Bool} {l : List α} (h : ∀ a ∈ l, key a < k → p a = true) :
    below key k (l.filter p) = below key k l := by
  unfold below
  rw [filter_filter]
  refine filter_congr fun a ha => ?_
  by_cases hk : key a < k
  · simp [hk, h a ha hk]
  · simp [hk]

/-- Rewriting only elements at or above `k`, to elements at or above `k`, keeps the part
below. -/
theorem below_map {f : α → α} {l : List α} (hlt : ∀ a ∈ l, key a < k → f a = a)
    (hle : ∀ a ∈ l, k ≤ key a → k ≤ key (f a)) : below key k (l.map f) = below key k l := by
  induction l with
  | nil => rfl
  | cons b l ih =>
    have hi := ih (fun a ha => hlt a (mem_cons_of_mem _ ha))
      (fun a ha => hle a (mem_cons_of_mem _ ha))
    rw [map_cons]
    by_cases hb : key b < k
    · rw [hlt b mem_cons_self hb, below_cons_of_lt _ hb, below_cons_of_lt _ hb, hi]
    · have hb' := not_lt.mp hb
      rw [below_cons_of_le _ hb', below_cons_of_le _ (hle b mem_cons_self hb'), hi]

end Below

end TASQuake.Lib
