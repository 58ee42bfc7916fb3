import Mathlib.Order.Lattice
import Mathlib.Data.List.Basic

/-!
# The first best element of a growing list

Elements arrive one after the other and are scored in a linear order.  `FirstBest l a k` says
that `a` is the earliest of the elements of `l` with the highest score, and that `k` elements
have arrived since.  `NoProgress n l` says that each of the last `n` elements failed to
exceed all elements before it; the two are related by `FirstBest.noProgress_iff`.
-/

namespace TASQuake.Lib

open List

variable {α E : Type} [LinearOrder E] {score : α → E}

/-- `a` is the earliest element with the highest score, followed by `k` others. -/
def FirstBest (score : α → E) (l : List α) (a : α) (k : ℕ) : Prop :=
  ∃ before after, l = before ++ a :: after ∧ after.length = k ∧
    (∀ b ∈ before, score b < score a) ∧ ∀ b ∈ after, score b ≤ score a

/-- Each of the last `n` elements is matched by an element before it. -/
def NoProgress (score : α → E) (l : List α) (n : ℕ) : Prop :=
  ∃ before after, l = before ++ after ∧ after.length = n ∧
    ∀ between b rest, after = between ++ b :: rest → ∃ c ∈ before ++ between, score b ≤ score c

theorem firstBest_singleton (a : α) : FirstBest score [a] a 0 :=
  ⟨[], [], rfl, rfl, nofun, nofun⟩

theorem FirstBest.le {l : List α} {a : α} {k : ℕ} (h : FirstBest score l a k) {b : α}
    (hb : b ∈ l) : score b ≤ score a := by
  obtain ⟨before, after, rfl, -, hlt, hle⟩ := h
  rcases mem_append.mp hb with hb | hb
  · exact (hlt b hb).le
  · rcases mem_cons.mp hb with rfl | hb
    · exact le_rfl
    · exact hle b hb

/-- A better element becomes the best. -/
theorem FirstBest.concat_of_lt {l : List α} {a b : α} {k : ℕ} (h : FirstBest score l a k)
    (hlt : score a < score b) : FirstBest score (l ++ [b]) b 0 :=
  ⟨l, [], rfl, rfl, fun _ hc => (h.le hc).trans_lt hlt, nofun⟩

/-- An element that is not better is one more without progress. -/
theorem FirstBest.concat_of_le {l : List α} {a b : α} {k : ℕ} (h : FirstBest score l a k)
    (hle : score b ≤ score a) : FirstBest score (l ++ [b]) a (k + 1) := by
  obtain ⟨before, after, rfl, rfl, hbefore, hafter⟩ := h
  refine ⟨before, after ++ [b], by simp, by simp, hbefore, ?_⟩
  intro c hc
  rcases mem_append.mp hc with hc | hc
  · exact hafter c hc
  · rw [mem_singleton.mp hc]
    exact hle

theorem FirstBest.noProgress_iff {l : List α} {a : α} {k : ℕ} (h : FirstBest score l a k)
    (n : ℕ) : NoProgress score l n ↔ n ≤ k := by
  obtain ⟨before, after, rfl, rfl, hbefore, hafter⟩ := h
  constructor
  · rintro ⟨old, new, heq, rfl, hfail⟩
    by_contra hlen
    -- the best element is among the last `n`, and nothing before it matches it
    have hold : old.length ≤ before.length := by
      have htotal := congrArg length heq
      simp only [length_append, length_cons] at htotal
      omega
    obtain ⟨between, rfl⟩ : ∃ between, before = old ++ between := by
      refine ⟨before.drop old.length, ?_⟩
      have hprefix : old = before.take old.length := by
        have htake := congrArg (take old.length) heq
        rw [take_left, take_append_of_le_length hold] at htake
        exact htake.symm
      conv_lhs => rw [← take_append_drop old.length before, ← hprefix]
    rw [append_assoc] at heq
    obtain ⟨c, hc, hle⟩ := hfail between a after (append_cancel_left heq).symm
    exact absurd hle (not_le.mpr (hbefore c hc))
  · intro hn
    have hlen : (after.drop (after.length - n)).length = n := by
      rw [length_drop]
      omega
    refine ⟨before ++ a :: after.take (after.length - n), after.drop (after.length - n), ?_, hlen, ?_⟩
    · rw [append_assoc, cons_append, take_append_drop]
    · intro between b rest hsplit
      have hb : b ∈ after := by
        apply mem_of_mem_drop (i := after.length - n)
        rw [hsplit]
        simp
      exact ⟨a, by simp, hafter b hb⟩

end TASQuake.Lib
