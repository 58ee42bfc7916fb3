import Mathlib.Data.List.Nodup
import Mathlib.Data.List.Basic
import TASQuake.Lib.Run

/-!
# Insertion-ordered maps

A finite map kept as the list of its entries in the order in which the keys were first written.
Writing an existing key replaces the value in place, writing a new key appends an entry, erasing a
key keeps the others in order.  The keys are pairwise distinct by construction (`nodup`).
-/

namespace TASQuake.Lib

open Prod List

section Entries

variable {κ ν : Type} [DecidableEq κ]

/-- The value of the first entry with key `k`. -/
def assocFind (k : κ) : List (κ × ν) → Option ν
  | [] => none
  | e :: rest => if e.1 = k then some e.2 else assocFind k rest

/-- Replace the value of the first entry with key `k`, or append an entry for it. -/
def assocPut (k : κ) (v : ν) : List (κ × ν) → List (κ × ν)
  | [] => [(k, v)]
  | e :: rest => if e.1 = k then (e.1, v) :: rest else e :: assocPut k v rest

theorem assocFind_eq_none_iff (k : κ) (l : List (κ × ν)) :
    assocFind k l = none ↔ k ∉ l.map fst := by
  induction l with
  | nil => simp [assocFind]
  | cons e rest ih =>
    by_cases h : e.1 = k
    · simp [assocFind, h]
    · have h' : ¬ k = e.1 := fun hk => h hk.symm
      simp only [assocFind, if_neg h, ih, map_cons, mem_cons, h', false_or]

theorem assocFind_assocPut (k k' : κ) (v : ν) (l : List (κ × ν)) :
    assocFind k' (assocPut k v l) = if k' = k then some v else assocFind k' l := by
  induction l with
  | nil =>
    by_cases h : k' = k
    · simp [assocPut, assocFind, h]
    · have h' : ¬ k = k' := fun hk => h hk.symm
      simp [assocPut, assocFind, h, h']
  | cons e rest ih =>
    by_cases he : e.1 = k
    · by_cases h : k' = k
      · simp [assocPut, assocFind, he, h]
      · have h' : ¬ k = k' := fun hk => h hk.symm
        simp [assocPut, assocFind, he, h, h']
    · by_cases h' : e.1 = k'
      · have h : ¬ k' = k := fun hk => he (h'.trans hk)
        simp [assocPut, assocFind, h', h]
      · simp only [assocPut, if_neg he, assocFind, if_neg h', ih]

/-- Writing a key leaves the key list alone when the key is there and appends it when it
is not. -/
theorem keys_assocPut (k : κ) (v : ν) (l : List (κ × ν)) :
    (assocPut k v l).map fst =
      if k ∈ l.map fst then l.map fst else l.map fst ++ [k] := by
  induction l with
  | nil => simp [assocPut]
  | cons e rest ih =>
    by_cases he : e.1 = k
    · simp [assocPut, he]
    · have he' : ¬ k = e.1 := fun hk => he hk.symm
      simp only [assocPut, if_neg he, map_cons, ih, mem_cons, he', false_or]
      split <;> simp

theorem nodup_keys_assocPut (k : κ) (v : ν) (l : List (κ × ν))
    (h : (l.map fst).Nodup) : ((assocPut k v l).map fst).Nodup := by
  rw [keys_assocPut]
  split
  · exact h
  · next hk =>
    refine nodup_append.mpr ⟨h, nodup_singleton k, ?_⟩
    intro a ha b hb
    rw [mem_singleton.mp hb]
    rintro rfl
    exact hk ha

theorem assocPut_of_notMem (k : κ) (v : ν) (l : List (κ × ν)) (h : k ∉ l.map fst) :
    assocPut k v l = l ++ [(k, v)] := by
  induction l with
  | nil => rfl
  | cons e rest ih =>
    simp only [map_cons, mem_cons, not_or] at h
    have he : ¬ e.1 = k := fun hk => h.1 hk.symm
    rw [assocPut, if_neg he, ih h.2, cons_append]

end Entries

/-- A map whose entries are kept in the order in which their keys were first written. -/
structure OrderedMap (κ ν : Type) where
  values : List (κ × ν)
  nodup : (values.map fst).Nodup

namespace OrderedMap

variable {κ ν : Type}

theorem ext {m m' : OrderedMap κ ν} (h : m.values = m'.values) : m = m' := by
  cases m
  cases m'
  cases h
  rfl

instance [DecidableEq κ] [DecidableEq ν] : DecidableEq (OrderedMap κ ν) := fun m m' =>
  if h : m.values = m'.values then isTrue (ext h)
  else isFalse (fun he => h (congrArg values he))

/-- The map with no entry. -/
def empty : OrderedMap κ ν := ⟨[], nodup_nil⟩

/-- Whether the map has no entry. -/
def isEmpty (m : OrderedMap κ ν) : Bool := m.values.isEmpty

@[simp] theorem isEmpty_empty : (empty : OrderedMap κ ν).isEmpty = true := rfl

theorem isEmpty_iff (m : OrderedMap κ ν) : m.isEmpty = true ↔ m = empty := by
  constructor
  · intro h
    exact ext (List.isEmpty_iff.mp h)
  · rintro rfl
    rfl

variable [DecidableEq κ]

/-- The value stored under a key. -/
def find? (m : OrderedMap κ ν) (k : κ) : Option ν := assocFind k m.values

/-- Whether a key has an entry. -/
def contains (m : OrderedMap κ ν) (k : κ) : Bool := (m.find? k).isSome

/-- Write a key: in place when it has an entry, at the end when it has none. -/
def put (m : OrderedMap κ ν) (k : κ) (v : ν) : OrderedMap κ ν :=
  ⟨assocPut k v m.values, nodup_keys_assocPut k v m.values m.nodup⟩

/-- The map after reading a key through `operator[]`: a key without entry gets one, with the
default value `d`. -/
def touch (m : OrderedMap κ ν) (k : κ) (d : ν) : OrderedMap κ ν :=
  if m.contains k then m else m.put k d

/-- Remove the entry of a key. -/
def erase (m : OrderedMap κ ν) (k : κ) : OrderedMap κ ν :=
  ⟨m.values.filter (fun e => decide (e.1 ≠ k)), m.nodup.sublist (filter_sublist.map _)⟩

/-- Write a list of entries, first to last. -/
def putAll (m : OrderedMap κ ν) (l : List (κ × ν)) : OrderedMap κ ν :=
  l.foldl (fun acc e => acc.put e.1 e.2) m

@[simp] theorem find?_empty (k : κ) : (empty : OrderedMap κ ν).find? k = none := rfl

section

variable (m : OrderedMap κ ν)
include m

@[simp] theorem putAll_nil : m.putAll [] = m := rfl

@[simp] theorem putAll_cons (e : κ × ν) (l : List (κ × ν)) :
    m.putAll (e :: l) = (m.put e.1 e.2).putAll l := rfl

theorem find?_put (k k' : κ) (v : ν) :
    (m.put k v).find? k' = if k' = k then some v else m.find? k' :=
  assocFind_assocPut k k' v m.values

@[simp] theorem find?_put_self (k : κ) (v : ν) :
    (m.put k v).find? k = some v := by
  simp [find?_put]

theorem contains_put (k k' : κ) (v : ν) :
    (m.put k v).contains k' = true ↔ k' = k ∨ m.contains k' = true := by
  unfold contains
  rw [find?_put]
  split
  · next heq => exact iff_of_true rfl (Or.inl heq)
  · next hne => exact (or_iff_right hne).symm

theorem contains_touch (k k' : κ) (d : ν) :
    (m.touch k d).contains k' = true ↔ k' = k ∨ m.contains k' = true := by
  unfold touch
  split
  · next hk =>
    refine ⟨Or.inr, ?_⟩
    rintro (rfl | h)
    · exact hk
    · exact h
  · exact contains_put m k k' d

/-- A key without entry counts as one with the default value. -/
theorem getD_find?_touch (k k' : κ) (d : ν) :
    ((m.touch k d).find? k').getD d = (m.find? k').getD d := by
  unfold touch
  split
  · rfl
  · next hk =>
    rw [find?_put]
    split
    · next heq =>
      have hnone : m.find? k' = none := by
        rw [heq]
        exact Option.not_isSome_iff_eq_none.mp hk
      rw [hnone]
      rfl
    · rfl

theorem find?_erase (k k' : κ) :
    (m.erase k).find? k' = if k' = k then none else m.find? k' := by
  obtain ⟨l, hn⟩ := m
  simp only [erase, find?]
  clear hn
  induction l with
  | nil => simp [assocFind]
  | cons e rest ih =>
    by_cases he : e.1 = k
    · rw [filter_cons_of_neg (by simpa using he), ih]
      by_cases h : k' = k
      · simp [h]
      · have h' : ¬ e.1 = k' := fun hk => h (hk.symm.trans he)
        simp [assocFind, h, h']
    · rw [filter_cons_of_pos (by simpa using he)]
      by_cases h' : e.1 = k'
      · have h : ¬ k' = k := fun hk => he (h'.trans hk)
        simp [assocFind, h', h]
      · simp only [assocFind, if_neg h', ih]

/-- The empty map is the one without entries. -/
theorem eq_empty_iff : m = empty ↔ ∀ k, m.find? k = none := by
  constructor
  · rintro rfl k
    rfl
  · intro h
    apply ext
    cases hv : m.values with
    | nil => rfl
    | cons e rest =>
      have he := h e.1
      simp [find?, hv, assocFind] at he

/-- The last value written counts. -/
theorem put_put (k : κ) (v w : ν) : (m.put k v).put k w = m.put k w := by
  apply ext
  show assocPut k w (assocPut k v m.values) = assocPut k w m.values
  induction m.values with
  | nil => simp [assocPut]
  | cons e rest ih =>
    by_cases he : e.1 = k
    · simp [assocPut, he]
    · simp only [assocPut, if_neg he, ih]

/-- What is written and erased leaves no trace. -/
theorem erase_put_self (k : κ) (v : ν) : (m.put k v).erase k = m.erase k := by
  apply ext
  show (assocPut k v m.values).filter _ = m.values.filter _
  induction m.values with
  | nil => simp [assocPut]
  | cons e rest ih =>
    by_cases he : e.1 = k
    · simp [assocPut, he]
    · simpa [assocPut, he] using ih

theorem erase_put_of_ne {k k' : κ} (h : k ≠ k') (v : ν) :
    (m.put k v).erase k' = (m.erase k').put k v := by
  apply ext
  show (assocPut k v m.values).filter _ = assocPut k v (m.values.filter _)
  induction m.values with
  | nil => simp [assocPut, h]
  | cons e rest ih =>
    by_cases he : e.1 = k
    · simp [assocPut, he, h]
    · by_cases he' : e.1 = k'
      · have hk : ¬ k' = k := fun hk => he (he'.trans hk)
        simp only [assocPut, he', if_neg hk]
        simpa [he'] using ih
      · simpa [assocPut, he, he'] using ih

theorem erase_erase_self (k : κ) : (m.erase k).erase k = m.erase k := by
  apply ext
  show (m.values.filter _).filter _ = m.values.filter _
  simp

theorem erase_comm (k k' : κ) :
    (m.erase k).erase k' = (m.erase k').erase k := by
  apply ext
  show (m.values.filter _).filter _ = (m.values.filter _).filter _
  rw [filter_filter, filter_filter]
  congr 1
  funext e
  rw [Bool.and_comm]

/-- A key without entry is written at the end. -/
theorem values_put_of_find?_none (k : κ) (v : ν)
    (h : m.find? k = none) : (m.put k v).values = m.values ++ [(k, v)] :=
  assocPut_of_notMem k v m.values ((assocFind_eq_none_iff k m.values).mp h)

/-- **Replaying the entries of one map into another**: the replayed entries win, the others
stay. -/
theorem find?_putAll (l : List (κ × ν)) (hl : (l.map fst).Nodup)
    (k : κ) : (m.putAll l).find? k = (assocFind k l).or (m.find? k) := by
  induction l generalizing m with
  | nil => simp [assocFind]
  | cons e rest ih =>
    simp only [map_cons, nodup_cons] at hl
    rw [putAll_cons, ih _ hl.2, find?_put]
    by_cases h : e.1 = k
    · have hr := (assocFind_eq_none_iff k rest).mpr (h ▸ hl.1)
      simp [assocFind, h, hr]
    · have h' : ¬ k = e.1 := fun hk => h hk.symm
      simp [assocFind, h, h']

/-- Replaying entries with fresh, distinct keys appends them in order. -/
theorem values_putAll_of_fresh (l : List (κ × ν))
    (h : ((m.values ++ l).map fst).Nodup) : (m.putAll l).values = m.values ++ l := by
  induction l generalizing m with
  | nil => simp
  | cons e rest ih =>
    have hk : m.find? e.1 = none := by
      refine (assocFind_eq_none_iff e.1 m.values).mpr fun hmem => ?_
      rw [map_append, nodup_append] at h
      exact h.2.2 e.1 hmem e.1 (by simp) rfl
    have hv := values_put_of_find?_none m e.1 e.2 hk
    rw [putAll_cons, ih (m.put e.1 e.2) (by rw [hv]; simpa using h), hv]
    simp

/-- Replaying the entries of a map into the empty map gives that map back. -/
theorem putAll_empty : (empty : OrderedMap κ ν).putAll m.values = m := by
  apply ext
  rw [values_putAll_of_fresh _ _ (by simpa [empty] using m.nodup)]
  rfl

end

end OrderedMap

end TASQuake.Lib
