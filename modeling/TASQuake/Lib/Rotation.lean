import Mathlib.Data.Nat.Notation

/-!
# Moving contents along a row of slots

A store maps keys to contents.  `move` takes the content of one key to another; `shiftUp` moves the
contents of a row of slots, the last one first, so that each slot gets what the slot before it had.
-/

namespace TASQuake.Lib

variable {K V : Type} [DecidableEq K]

/-- The content of `a`, if any, becomes that of `b`, and `a` has none. -/
def move (store : K → Option V) (a b : K) : K → Option V :=
  fun k => if k = b then store a else if k = a then none else store k

/-- The contents of the first `n` slots are moved up, from the last of them to the first. -/
def shiftUp (slot : ℕ → K) : ℕ → (K → Option V) → K → Option V
  | 0, store => store
  | n + 1, store => shiftUp slot n (move store (slot n) (slot (n + 1)))

/-- What has become of a store. -/
structure Shifted (slot : ℕ → K) (n : ℕ) (store store' : K → Option V) : Prop where
  moved : ∀ i < n, store' (slot (i + 1)) = store (slot i)
  first : 0 < n → store' (slot 0) = none
  others : ∀ k, (∀ i ≤ n, k ≠ slot i) → store' k = store k

theorem shifted_shiftUp {slot : ℕ → K} (hinj : Function.Injective slot) (n : ℕ)
    (store : K → Option V) : Shifted slot n store (shiftUp slot n store) := by
  induction n generalizing store with
  | zero =>
    exact ⟨fun i hi => absurd hi (Nat.not_lt_zero i), fun h => absurd h (Nat.lt_irrefl 0),
      fun _ _ => rfl⟩
  | succ n ih =>
    have hrest := ih (move store (slot n) (slot (n + 1)))
    have hne : ∀ i j, i ≠ j → slot i ≠ slot j := fun i j hij heq => hij (hinj heq)
    refine ⟨fun i hi => ?_, fun _ => ?_, fun k hk => ?_⟩
    · rcases Nat.lt_succ_iff_lt_or_eq.mp hi with hlt | rfl
      · show shiftUp slot n _ (slot (i + 1)) = store (slot i)
        rw [hrest.moved i hlt]
        unfold move
        rw [if_neg (hne _ _ (by omega)), if_neg (hne _ _ (by omega))]
      · show shiftUp slot i _ (slot (i + 1)) = store (slot i)
        rw [hrest.others _ fun j hj => hne _ _ (by omega)]
        exact if_pos rfl
    · show shiftUp slot n _ (slot 0) = none
      rcases Nat.eq_zero_or_pos n with rfl | hpos
      · show move store (slot 0) (slot 1) (slot 0) = none
        unfold move
        rw [if_neg (hne _ _ (by omega)), if_pos rfl]
      · exact hrest.first hpos
    · show shiftUp slot n _ k = store k
      rw [hrest.others k fun i hi => hk i (by omega)]
      unfold move
      rw [if_neg (hk _ (Nat.le_refl _)), if_neg (hk _ (Nat.le_succ n))]

end TASQuake.Lib
