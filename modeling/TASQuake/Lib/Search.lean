import Mathlib.Dynamics.PeriodicPts.Defs
import Mathlib.Algebra.Order.Archimedean.Basic
import Mathlib.Algebra.Order.Field.Basic
import Mathlib.Data.Nat.Find
import Mathlib.Order.Interval.Set.UnorderedInterval
import Mathlib.Tactic.Linarith
import Mathlib.Tactic.Ring

/-!
# Searching along an orbit

`search` takes one step after the other and stops at the first element that passes a test;
`searchRound` gives up when it is back at its start, as a probe of a circular table does.
-/

namespace TASQuake.Lib

open Function Nat

variable {α : Type}

/-- The first element of `a, next a, next (next a), …` that passes the test, if it is among
the first `fuel` ones. -/
def search (stop : α → Bool) (next : α → α) : ℕ → α → Option α
  | 0, _ => none
  | fuel + 1, a => if stop a then some a else search stop next fuel (next a)

theorem of_search_eq_some {stop : α → Bool} {next : α → α} {fuel : ℕ} {a r : α}
    (h : search stop next fuel a = some r) :
    ∃ m < fuel, next^[m] a = r ∧ stop r = true ∧ ∀ k < m, stop (next^[k] a) = false := by
  induction fuel generalizing a with
  | zero => cases h
  | succ fuel ih =>
    rw [search] at h
    split at h
    · next hstop =>
      cases h
      exact ⟨0, succ_pos _, rfl, hstop, fun k hk => absurd hk (not_lt_zero _)⟩
    · next hgo =>
      obtain ⟨m, hm, hr, hstop, hbefore⟩ := ih h
      refine ⟨m + 1, succ_lt_succ hm, hr, hstop, fun k hk => ?_⟩
      cases k with
      | zero => exact Bool.not_eq_true _ ▸ hgo
      | succ k => exact hbefore k (lt_of_succ_lt_succ hk)

/-- The search ends if one of the elements it may look at passes the test. -/
theorem exists_search_eq_some {stop : α → Bool} {next : α → α} {fuel : ℕ} {a : α}
    (h : ∃ k < fuel, stop (next^[k] a) = true) : ∃ r, search stop next fuel a = some r := by
  induction fuel generalizing a with
  | zero =>
    obtain ⟨k, hk, -⟩ := h
    exact absurd hk (not_lt_zero _)
  | succ fuel ih =>
    rw [search]
    split
    · exact ⟨a, rfl⟩
    · next hgo =>
      obtain ⟨k, hk, hstop⟩ := h
      cases k with
      | zero => exact absurd hstop hgo
      | succ k => exact ih ⟨k, lt_of_succ_lt_succ hk, hstop⟩

/-- The search looks at the orbit only. -/
theorem search_congr {stop stop' : α → Bool} {next : α → α} {fuel : ℕ} {a : α}
    (h : ∀ k, stop (next^[k] a) = stop' (next^[k] a)) :
    search stop next fuel a = search stop' next fuel a := by
  induction fuel generalizing a with
  | zero => rfl
  | succ fuel ih =>
    have hfirst : stop a = stop' a := h 0
    have hrest := ih (a := next a) fun k => h (k + 1)
    rw [search, search, hfirst, hrest]

/-- The elements that the search tests. -/
def tested (stop : α → Bool) (next : α → α) : ℕ → α → List α
  | 0, _ => []
  | fuel + 1, a => a :: if stop a then [] else tested stop next fuel (next a)

theorem exists_iterate_of_mem_tested {stop : α → Bool} {next : α → α} {fuel : ℕ} {a b : α}
    (h : b ∈ tested stop next fuel a) : ∃ k, next^[k] a = b := by
  induction fuel generalizing a with
  | zero => cases h
  | succ fuel ih =>
    rcases List.mem_cons.mp h with rfl | h
    · exact ⟨0, rfl⟩
    · split at h
      · cases h
      · obtain ⟨k, hk⟩ := ih h
        exact ⟨k + 1, hk⟩

section Round

variable [DecidableEq α] {pred : α → Bool} {next : α → α} {fuel : ℕ} {a r : α}

/-- The first element after `a` with the property, or `a` itself. -/
def searchRound (pred : α → Bool) (next : α → α) (fuel : ℕ) (a : α) : Option α :=
  search (fun p => pred p || decide (p = a)) next fuel (next a)

theorem searchRound_congr {pred' : α → Bool} (h : ∀ k, pred (next^[k] a) = pred' (next^[k] a)) :
    searchRound pred next fuel a = searchRound pred' next fuel a := by
  apply search_congr
  intro k
  have hk := h (k + 1)
  rw [iterate_succ_apply] at hk
  rw [hk]

/-- A search that can come back to its start ends. -/
theorem exists_searchRound_eq_some (hpos : 0 < fuel) (hperiod : next^[fuel] a = a) :
    ∃ r, searchRound pred next fuel a = some r := by
  refine exists_search_eq_some ⟨fuel - 1, sub_lt hpos Nat.one_pos, ?_⟩
  rw [← iterate_succ_apply, succ_eq_add_one, Nat.sub_add_cancel hpos, hperiod]
  simp

section

variable (h : searchRound pred next fuel a = some r)
include h

theorem searchRound_mem :
    ∃ m ≤ fuel, next^[m] a = r := by
  obtain ⟨m, hm, hr, -⟩ := of_search_eq_some h
  exact ⟨m + 1, hm, hr⟩

theorem pred_of_searchRound_ne (hne : r ≠ a) :
    pred r = true := by
  obtain ⟨m, -, -, hstop, -⟩ := of_search_eq_some h
  simpa [hne] using hstop

/-- A search round finds an element with the property if the orbit of its start has one. -/
theorem pred_of_searchRound {k : ℕ}
    (hk : pred (next^[k] a) = true) : pred r = true := by
  by_cases hne : r = a
  · -- the round has closed, so that it has seen the whole orbit
    obtain ⟨m, -, hr, -, hbefore⟩ := of_search_eq_some h
    have hperiod : Function.IsPeriodicPt next (m + 1) a := by
      show next^[m + 1] a = a
      rw [iterate_succ_apply, hr, hne]
    rw [← hperiod.iterate_mod_apply] at hk
    cases hmod : k % (m + 1) with
    | zero =>
      rw [hmod] at hk
      rwa [hne]
    | succ j =>
      have hlt : k % (m + 1) < m + 1 := mod_lt _ (succ_pos _)
      have hseen := hbefore j (by omega)
      rw [← iterate_succ_apply, succ_eq_add_one, ← hmod, hk] at hseen
      simp at hseen
  · exact pred_of_searchRound_ne h hne

end

end Round

/-! ## Circular tables -/

section Ring

variable {n a j : ℕ}

/-- Two steps that agree on the slots have the same iterates. -/
theorem iterate_congr_lt {f g : ℕ → ℕ} (hfg : ∀ p < n, f p = g p) (hg : ∀ p < n, g p < n)
    (ha : a < n) (k : ℕ) : f^[k] a = g^[k] a ∧ g^[k] a < n := by
  induction k with
  | zero => exact ⟨rfl, ha⟩
  | succ k ih =>
    rw [iterate_succ_apply', iterate_succ_apply', ih.1, hfg _ ih.2]
    exact ⟨rfl, hg _ ih.2⟩

theorem iterate_add_mod (d : ℕ) (ha : a < n) (k : ℕ) :
    (fun p => (p + d) % n)^[k] a = (a + k * d) % n := by
  induction k with
  | zero => simp [mod_eq_of_lt ha]
  | succ k ih =>
    rw [iterate_succ_apply', ih]
    simp only [mod_add_mod]
    rw [succ_mul, add_assoc]

theorem iterate_add_mod_self (d : ℕ) (ha : a < n) : (fun p => (p + d) % n)^[n] a = a := by
  rw [iterate_add_mod d ha, add_mul_mod_self_left, mod_eq_of_lt ha]

/-- Upwards, every slot is reached. -/
theorem exists_iterate_up (ha : a < n) (hj : j < n) :
    ∃ k < n, (fun p => (p + 1) % n)^[k] a = j := by
  by_cases h : a ≤ j
  · refine ⟨j - a, by omega, ?_⟩
    rw [iterate_add_mod 1 ha, mul_one, Nat.add_sub_cancel' h, mod_eq_of_lt hj]
  · refine ⟨n - a + j, by omega, ?_⟩
    rw [iterate_add_mod 1 ha, mul_one, show a + (n - a + j) = n + j by omega,
      add_mod_left, mod_eq_of_lt hj]

/-- Downwards, every slot is reached. -/
theorem exists_iterate_down (ha : a < n) (hj : j < n) :
    ∃ k < n, (fun p => (p + (n - 1)) % n)^[k] a = j := by
  obtain ⟨m, rfl⟩ : ∃ m, n = m + 1 := ⟨n - 1, by omega⟩
  by_cases h : j ≤ a
  · obtain ⟨k, rfl⟩ := Nat.exists_eq_add_of_le h
    have hsum : j + k + k * m = j + k * (m + 1) := by
      rw [mul_succ]
      omega
    refine ⟨k, by omega, ?_⟩
    rw [iterate_add_mod _ ha, Nat.add_sub_cancel, hsum, add_mul_mod_self_right,
      mod_eq_of_lt hj]
  · obtain ⟨k, hk⟩ : ∃ k, a + (m + 1) = j + (k + 1) := ⟨a + m - j, by omega⟩
    have hsum : a + (k + 1) * m = j + k * (m + 1) := by
      rw [mul_succ, succ_mul]
      omega
    refine ⟨k + 1, by omega, ?_⟩
    rw [iterate_add_mod _ ha, Nat.add_sub_cancel, hsum, add_mul_mod_self_right,
      mod_eq_of_lt hj]

end Ring

/-!
## Bisection

The two halves of an interval, in a linearly ordered field: the midpoint halves the distance to
either end and lies between them, and after enough halvings every distance is below any positive
bound.
-/

variable {K : Type} [Field K] [LinearOrder K] [IsStrictOrderedRing K]

theorem abs_half_sub (a b : K) : |(a + b) / 2 - b| = |a - b| / 2 := by
  have heq : (a + b) / 2 - b = (a - b) / 2 := by ring
  rw [heq, abs_div, abs_two]

theorem abs_sub_half (a b : K) : |a - (a + b) / 2| = |a - b| / 2 := by
  have heq : a - (a + b) / 2 = (a - b) / 2 := by ring
  rw [heq, abs_div, abs_two]

/-- The midpoint of two points of an interval is in the interval. -/
theorem half_mem_uIcc {a b l u : K} (ha : a ∈ Set.uIcc l u) (hb : b ∈ Set.uIcc l u) :
    (a + b) / 2 ∈ Set.uIcc l u := by
  obtain ⟨hla, hau⟩ : min l u ≤ a ∧ a ≤ max l u := ha
  obtain ⟨hlb, hbu⟩ : min l u ≤ b ∧ b ≤ max l u := hb
  have hlow : min l u ≤ (a + b) / 2 := by linarith
  have hhigh : (a + b) / 2 ≤ max l u := by linarith
  exact ⟨hlow, hhigh⟩

/-- The number of halvings, one at least, that bring a distance below a bound. -/
theorem exists_isLeast_halvings [Archimedean K] (d : K) {eps : K} (heps : 0 < eps) :
    ∃ k, IsLeast {k : ℕ | 1 ≤ k ∧ d / 2 ^ k < eps} k := by
  have hex : ∃ k : ℕ, 1 ≤ k ∧ d / 2 ^ k < eps := by
    obtain ⟨k, hk⟩ := pow_unbounded_of_one_lt (d / eps) (one_lt_two (α := K))
    refine ⟨k + 1, succ_le_succ (zero_le k), ?_⟩
    rw [div_lt_iff₀ (by positivity)]
    rw [div_lt_iff₀ heps] at hk
    have hpow : (2 : K) ^ k ≤ 2 ^ (k + 1) := pow_le_pow_right₀ one_le_two (le_succ k)
    calc d < 2 ^ k * eps := hk
      _ ≤ 2 ^ (k + 1) * eps := mul_le_mul_of_nonneg_right hpow heps.le
      _ = eps * 2 ^ (k + 1) := mul_comm _ _
  classical
  exact ⟨Nat.find hex, Nat.find_spec hex, fun k hk => Nat.find_min' hex hk⟩

end TASQuake.Lib
