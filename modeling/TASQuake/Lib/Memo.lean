import Mathlib.Data.List.Chain

/-!
# A memo of one entry

A function of a key and of something else is computed anew unless the key is the one of the call
before.  `same` compares keys; it need not be reflexive, and what it identifies need not be equal.
-/

namespace TASQuake.Lib

variable {K A V : Type}

/-- The key and the value of the last call that has not been answered from the memo. -/
structure Memo (K V : Type) where
  key : K
  value : V

/-- Two calls with the same key have the same value. -/
def Agrees (same : K → K → Bool) (f : K → A → V) (c d : K × A) : Prop :=
  same c.1 d.1 = true → f c.1 c.2 = f d.1 d.2

namespace Memo

/-- A call. -/
def call (same : K → K → Bool) (f : K → A → V) (m : Memo K V) (k : K) (a : A) : Memo K V × V :=
  if same m.key k then (m, m.value) else (⟨k, f k a⟩, f k a)

/-- What a sequence of calls returns. -/
def results (same : K → K → Bool) (f : K → A → V) : Memo K V → List (K × A) → List V
  | _, [] => []
  | m, c :: cs => (m.call same f c.1 c.2).2 :: results same f (m.call same f c.1 c.2).1 cs

/-- The memo answers as a key and a value would. -/
structure Remembers (same : K → K → Bool) (m : Memo K V) (k : K) (v : V) : Prop where
  key : ∀ k', same m.key k' = same k k'
  value : m.value = v

section Rules

variable {same : K → K → Bool} {f : K → A → V} {m : Memo K V}
  (hsymm : ∀ a b, same a b = true → same b a = true)
  (htrans : ∀ a b c, same a b = true → same b c = true → same a c = true)
include hsymm htrans

theorem same_congr {a b : K} (h : same a b = true) (c : K) : same a c = same b c := by
  rw [Bool.eq_iff_iff]
  constructor
  · exact htrans b a c (hsymm a b h)
  · exact htrans a b c h

/-- After a call that has returned the value of the function, the memo remembers the call. -/
theorem remembers_call (k : K) (a : A) (h : (m.call same f k a).2 = f k a) :
    Remembers same (m.call same f k a).1 k (f k a) := by
  unfold call at h ⊢
  split at h
  · next hsame =>
    rw [if_pos hsame]
    exact ⟨same_congr hsymm htrans hsame, h⟩
  · next hsame =>
    rw [if_neg hsame]
    exact ⟨fun _ => rfl, rfl⟩

omit hsymm htrans in
theorem call_eq_iff {c : K × A} (h : Remembers same m c.1 (f c.1 c.2)) (d : K × A) :
    (m.call same f d.1 d.2).2 = f d.1 d.2 ↔ Agrees same f c d := by
  unfold call Agrees
  rw [h.key]
  split
  · next hsame =>
    rw [h.value]
    exact ⟨fun heq _ => heq, fun heq => heq hsame⟩
  · next hsame => exact ⟨fun _ hs => absurd hs hsame, fun _ => rfl⟩

theorem results_eq_map_iff_of_remembers {c : K × A} (h : Remembers same m c.1 (f c.1 c.2))
    (calls : List (K × A)) :
    results same f m calls = calls.map (fun d => f d.1 d.2) ↔
      (c :: calls).IsChain (Agrees same f) := by
  induction calls generalizing m c with
  | nil => simp [results]
  | cons d calls ih =>
    rw [results, List.map_cons, List.cons.injEq, call_eq_iff h d, List.isChain_cons_cons]
    refine and_congr_right fun hagrees => ih ?_
    exact remembers_call hsymm htrans d.1 d.2 ((call_eq_iff h d).mpr hagrees)

/-- **When a memo does not change what is computed.**  To begin with it must hold the value of every
call that it takes for its own. -/
theorem results_eq_map_iff (hstart : ∀ k a, same m.key k = true → m.value = f k a)
    (calls : List (K × A)) :
    results same f m calls = calls.map (fun d => f d.1 d.2) ↔ calls.IsChain (Agrees same f) := by
  cases calls with
  | nil => simp [results]
  | cons c calls =>
    have hfirst : (m.call same f c.1 c.2).2 = f c.1 c.2 := by
      unfold call
      split
      · next hsame => exact hstart c.1 c.2 hsame
      · rfl
    rw [results, List.map_cons, List.cons.injEq, and_iff_right hfirst]
    exact results_eq_map_iff_of_remembers hsymm htrans
      (remembers_call hsymm htrans c.1 c.2 hfirst) calls

end Rules

end Memo

end TASQuake.Lib
