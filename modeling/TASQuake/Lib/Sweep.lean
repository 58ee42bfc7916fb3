import Mathlib.Data.List.Induction

/-!
# Taking elements out of a vector from its end

`sweepBack p i l` is the loop `for (i = i - 1; i >= 0; --i)` that erases the elements of a vector
for which `p` holds.  What is left keeps its order, and what is taken comes out in the reverse order
(`sweepBack_length`).
-/

namespace TASQuake.Lib

open List

variable {α : Type}

/-- The elements left and the elements taken when the indices below `i` are visited from above. -/
def sweepBack (p : α → Bool) : ℕ → List α → List α × List α
  | 0, l => (l, [])
  | i + 1, l =>
    match l[i]? with
    | some a =>
      if p a then
        let (left, taken) := sweepBack p i (l.eraseIdx i)
        (left, a :: taken)
      else sweepBack p i l
    | none => sweepBack p i l

/-- The part behind the index is left alone. -/
theorem sweepBack_append (p : α → Bool) (l tail : List α) :
    sweepBack p l.length (l ++ tail) =
      (l.filter (fun a => !p a) ++ tail, (l.filter p).reverse) := by
  -- the loop looks at the last element of `l` first
  induction l using reverseRecOn generalizing tail with
  | nil => rfl
  | append_singleton l a ih =>
    have happend : l ++ [a] ++ tail = l ++ (a :: tail) := by simp
    have hget : (l ++ (a :: tail))[l.length]? = some a := by simp
    have herase : (l ++ (a :: tail)).eraseIdx l.length = l ++ tail := by
      rw [eraseIdx_append_of_length_le (Nat.le_refl _)]
      simp
    rw [length_append, length_singleton, happend, sweepBack, hget]
    cases ha : p a with
    | true => simp [herase, ih, filter_append, ha]
    | false => simp [ih, filter_append, ha]

theorem sweepBack_length (p : α → Bool) (l : List α) :
    sweepBack p l.length l = (l.filter (fun a => !p a), (l.filter p).reverse) := by
  have h := sweepBack_append p l []
  rwa [append_nil, append_nil] at h

end TASQuake.Lib
