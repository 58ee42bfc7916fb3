import TASQuake.Lib.Search
import TASQuake.Model.Random
import Mathlib.Data.List.GetD
import Mathlib.Tactic.Linarith

/-!
# The random integers

`GenerateRandomIntegers` fills its slots one by one; the slots still free are those that hold the
sentinel.  Between the rounds each slot has a lower and an upper bound; both lists are spaced by the
gap, and a slot that holds a value has that value for both its bounds (`Filling`).
-/

namespace TASQuake.RandomSlots

open Lib RandomSlots List

variable {result : List Int} {sentinel minGap low high : Int} {number : ℕ}

/-! ## Finding a free slot -/

theorem findFree_of_search {fuel next r : ℕ}
    (h : search (fun p => decide (result.getD p sentinel = sentinel)) (fun p => (p + 1) % number)
      fuel next = some r) : findFree result sentinel number fuel next = r := by
  induction fuel generalizing next with
  | zero => cases h
  | succ fuel ih =>
    rw [search] at h
    rw [findFree]
    by_cases hfree : result.getD next sentinel = sentinel
    · rw [if_pos (decide_eq_true hfree)] at h
      rw [if_pos hfree]
      exact Option.some.inj h
    · rw [if_neg (by simpa using hfree)] at h
      rw [if_neg hfree]
      exact ih h

theorem findFree_free (hlen : result.length = number) (hfree : sentinel ∈ result) {next : ℕ}
    (hnext : next < number) :
    ∃ hr : findFree result sentinel number number next < result.length,
      result[findFree result sentinel number number next] = sentinel := by
  obtain ⟨j, hj, hjfree⟩ := getElem_of_mem hfree
  obtain ⟨k, hk, hkj⟩ := exists_iterate_up hnext (hlen ▸ hj)
  obtain ⟨r, hr⟩ : ∃ r, search (fun p => decide (result.getD p sentinel = sentinel))
      (fun p => (p + 1) % number) number next = some r := by
    refine exists_search_eq_some ⟨k, hk, ?_⟩
    rw [hkj, getD_eq_getElem _ _ hj, hjfree]
    exact decide_eq_true rfl
  obtain ⟨m, -, hm, hstop, -⟩ := of_search_eq_some hr
  rw [iterate_add_mod 1 hnext] at hm
  have hlt : r < result.length := by
    rw [hlen, ← hm]
    exact Nat.mod_lt _ (by omega)
  rw [findFree_of_search hr]
  refine ⟨hlt, ?_⟩
  have hfree := of_decide_eq_true hstop
  rwa [getD_eq_getElem _ _ hlt] at hfree

/-! ## Spaced bounds -/

theorem getD_set (l : List Int) (i j : ℕ) (v : Int) :
    (l.set i v).getD j 0 = if i = j ∧ i < l.length then v else l.getD j 0 := by
  rw [getD_eq_getElem?_getD, getD_eq_getElem?_getD, getElem?_set]
  by_cases hij : i = j
  · subst hij
    by_cases hi : i < l.length
    · simp [hi]
    · simp [hi]
  · simp [hij]

theorem getD_set_of_lt {l : List Int} {i : ℕ} (hi : i < l.length) (v : Int) (j : ℕ) :
    (l.set i v).getD j 0 = if i = j then v else l.getD j 0 := by
  rw [getD_set]
  simp only [hi, and_true]

/-- Neighbours are at least `minGap` apart, except perhaps the pair that ends at `hole`. -/
def SpacedBut (number : ℕ) (minGap : Int) (hole : ℕ) (l : List Int) : Prop :=
  ∀ i, i + 1 < number → i + 1 ≠ hole → l.getD i 0 + minGap ≤ l.getD (i + 1) 0

/-- Neighbours are at least `minGap` apart. -/
def Spaced (number : ℕ) (minGap : Int) (l : List Int) : Prop :=
  ∀ i, i + 1 < number → l.getD i 0 + minGap ≤ l.getD (i + 1) 0

/-- What the loop over the lower bounds has done: the bounds before `u` are as they were, none
went down, the neighbours are spaced again, and no bound has passed a spaced list above it. -/
structure Raised (number : ℕ) (minGap : Int) (u : ℕ) (l l' : List Int) : Prop where
  length : l'.length = number
  before : ∀ j < u, l'.getD j 0 = l.getD j 0
  le : ∀ j, l.getD j 0 ≤ l'.getD j 0
  spaced : Spaced number minGap l'
  bounded : ∀ above, Spaced number minGap above → (∀ j < number, l.getD j 0 ≤ above.getD j 0) →
    ∀ j < number, l'.getD j 0 ≤ above.getD j 0

theorem raised_raiseMins {steps u : ℕ} {l : List Int} (hlen : l.length = number) (hu : 0 < u)
    (hsteps : u + steps = number) (hspaced : SpacedBut number minGap u l) :
    Raised number minGap u l (raiseMins minGap steps u l) := by
  induction steps generalizing u l with
  | zero =>
    refine ⟨hlen, fun _ _ => rfl, fun _ => le_refl _, ?_, fun _ _ h => h⟩
    intro i hi
    exact hspaced i hi (by omega)
  | succ steps ih =>
    rw [raiseMins]
    split
    · next hlt =>
      have hul : u < l.length := by omega
      have hset := getD_set_of_lt hul (l.getD (u - 1) 0 + minGap)
      have hnext := ih (u := u + 1) (l := l.set u (l.getD (u - 1) 0 + minGap))
        (by rw [length_set, hlen]) (by omega) (by omega) (by
          -- the pair at `u` is now exactly spaced; the next pair may have come too close
          intro i hi hne
          rw [hset, hset]
          by_cases hiu : u = i + 1
          · subst hiu
            rw [if_neg (by omega), if_pos rfl]
            exact le_refl _
          · rw [if_neg (by omega), if_neg hiu]
            exact hspaced i hi (Ne.symm hiu))
      refine ⟨hnext.length, ?_, ?_, hnext.spaced, ?_⟩
      · intro j hj
        rw [hnext.before j (by omega), hset, if_neg (by omega)]
      · intro j
        refine le_trans ?_ (hnext.le j)
        rw [hset]
        split
        · next h =>
          subst h
          exact le_of_lt hlt
        · exact le_refl _
      · intro above habove hle
        refine hnext.bounded above habove ?_
        intro j hj
        rw [hset]
        split
        · next h =>
          subst h
          have h₁ := hle (u - 1) (by omega)
          have h₂ := habove (u - 1) (by omega)
          rw [Nat.sub_add_cancel hu] at h₂
          omega
        · exact hle j hj
    · next hge =>
      refine ⟨hlen, fun _ _ => rfl, fun _ => le_refl _, ?_, fun _ _ h => h⟩
      intro i hi
      by_cases hiu : i + 1 = u
      · subst hiu
        rw [Nat.add_sub_cancel] at hge
        omega
      · exact hspaced i hi hiu

/-- The same for the upper bounds, which go down from slot `u` on towards the first. -/
structure Lowered (number : ℕ) (minGap : Int) (u : ℕ) (l l' : List Int) : Prop where
  length : l'.length = number
  after : ∀ j, u ≤ j → l'.getD j 0 = l.getD j 0
  le : ∀ j, l'.getD j 0 ≤ l.getD j 0
  spaced : Spaced number minGap l'
  bounded : ∀ below, Spaced number minGap below → (∀ j < number, below.getD j 0 ≤ l.getD j 0) →
    ∀ j < number, below.getD j 0 ≤ l'.getD j 0

theorem lowered_lowerMaxs {u : ℕ} {l : List Int} (hlen : l.length = number) (hu : u < number)
    (hspaced : SpacedBut number minGap u l) :
    Lowered number minGap u l (lowerMaxs minGap u l) := by
  induction u generalizing l with
  | zero =>
    refine ⟨hlen, fun _ _ => rfl, fun _ => le_refl _, ?_, fun _ _ h => h⟩
    intro i hi
    exact hspaced i hi (by omega)
  | succ u ih =>
    rw [lowerMaxs]
    split
    · next hgt =>
      have hul : u < l.length := by omega
      have hset := getD_set_of_lt hul (l.getD (u + 1) 0 - minGap)
      have hnext := ih (l := l.set u (l.getD (u + 1) 0 - minGap))
        (by rw [length_set, hlen]) (by omega) (by
          intro i hi hne
          rw [hset, hset]
          by_cases hiu : u = i
          · subst hiu
            rw [if_pos rfl, if_neg (by omega)]
            omega
          · rw [if_neg hiu, if_neg (Ne.symm hne)]
            exact hspaced i hi (by omega))
      refine ⟨hnext.length, ?_, ?_, hnext.spaced, ?_⟩
      · intro j hj
        rw [hnext.after j (by omega), hset, if_neg (by omega)]
      · intro j
        refine le_trans (hnext.le j) ?_
        rw [hset]
        split
        · next h =>
          subst h
          exact le_of_lt hgt
        · exact le_refl _
      · intro below hbelow hle
        refine hnext.bounded below hbelow ?_
        intro j hj
        rw [hset]
        split
        · next h =>
          subst h
          have h₁ := hle (u + 1) hu
          have h₂ := hbelow u hu
          omega
        · exact hle j hj
    · next hle =>
      refine ⟨hlen, fun _ _ => rfl, fun _ => le_refl _, ?_, fun _ _ h => h⟩
      intro i hi
      by_cases hiu : i = u
      · subst hiu
        omega
      · exact hspaced i hi (by omega)

/-! ## Filling the slots -/

theorem uniformInt_mem {lo hi : Int} (h : lo ≤ hi) (draws : Draws) :
    lo ≤ (uniformInt lo hi draws).1 ∧ (uniformInt lo hi draws).1 ≤ hi := by
  show lo ≤ lo + ((draw draws).1 : Int) % (hi - lo + 1) ∧
    lo + ((draw draws).1 : Int) % (hi - lo + 1) ≤ hi
  have hpos : 0 < hi - lo + 1 := by omega
  have hnonneg := Int.emod_nonneg ((draw draws).1 : Int) (ne_of_gt hpos)
  have hlt := Int.emod_lt_of_pos ((draw draws).1 : Int) hpos
  omega

/-- What holds between the rounds, with `free` slots left. -/
structure Filling (number : ℕ) (low high minGap : Int) (free : ℕ) (s : RandomSlots) : Prop where
  length_result : s.result.length = number
  length_mins : s.mins.length = number
  length_maxs : s.maxs.length = number
  spaced_mins : Spaced number minGap s.mins
  spaced_maxs : Spaced number minGap s.maxs
  low_le : ∀ j < number, low ≤ s.mins.getD j 0
  le_high : ∀ j < number, s.maxs.getD j 0 ≤ high
  mins_le_maxs : ∀ j < number, s.mins.getD j 0 ≤ s.maxs.getD j 0
  filled : ∀ j < number, s.result.getD j 0 = low - 1 ∨
    (s.mins.getD j 0 = s.result.getD j 0 ∧ s.maxs.getD j 0 = s.result.getD j 0)
  count : s.result.count (low - 1) = free

variable {free : ℕ} {s : RandomSlots}

/-- **One round writes one value into one free slot**, within the bounds of the slot. -/
theorem Filling.fillOne_eq (h : Filling number low high minGap (free + 1) s) (draws : Draws) :
    ∃ next < number, ∃ value rest, s.result.getD next 0 = low - 1 ∧
      s.mins.getD next 0 ≤ value ∧ value ≤ s.maxs.getD next 0 ∧
      fillOne number (low - 1) minGap s draws =
        ({ result := s.result.set next value
           mins := raiseMins minGap (number - next - 1) (next + 1) (s.mins.set next value)
           maxs := lowerMaxs minGap next (s.maxs.set next value) }, rest) := by
  have hmem : low - 1 ∈ s.result := by
    rw [← count_pos_iff, h.count]
    omega
  have hpos : 0 < number := by
    rw [← h.length_result]
    exact length_pos_of_mem hmem
  obtain ⟨hnext, hfree⟩ := findFree_free h.length_result hmem
    (Nat.mod_lt (uniformInt 0 number draws).1.toNat hpos)
  unfold fillOne
  generalize uniformInt 0 number draws = drawn at hnext hfree ⊢
  obtain ⟨index, draws⟩ := drawn
  dsimp only at hnext hfree ⊢
  generalize findFree s.result (low - 1) number number (index.toNat % number) = next
    at hnext hfree ⊢
  have hlt : next < number := h.length_result ▸ hnext
  have hle := h.mins_le_maxs next hlt
  refine ⟨next, hlt, (if s.mins.getD next 0 = s.maxs.getD next 0 then (s.mins.getD next 0, draws)
      else uniformInt (s.mins.getD next 0) (s.maxs.getD next 0) draws).1, _, ?_, ?_, ?_, rfl⟩
  · rw [getD_eq_getElem _ _ hnext, hfree]
  · split
    · exact le_refl _
    · exact (uniformInt_mem hle draws).1
  · split
    · exact hle
    · exact (uniformInt_mem hle draws).2

theorem spacedBut_set_mins (h : Filling number low high minGap free s) {next : ℕ} {value : Int}
    (hvalue : s.mins.getD next 0 ≤ value) :
    SpacedBut number minGap (next + 1) (s.mins.set next value) := by
  intro i hi hne
  have hspaced := h.spaced_mins i hi
  rw [getD_set, getD_set, if_neg (by omega)]
  split
  · next heq =>
    obtain ⟨rfl, -⟩ := heq
    omega
  · exact hspaced

theorem spacedBut_set_maxs (h : Filling number low high minGap free s) {next : ℕ} {value : Int}
    (hvalue : value ≤ s.maxs.getD next 0) :
    SpacedBut number minGap next (s.maxs.set next value) := by
  intro i hi hne
  have hspaced := h.spaced_maxs i hi
  rw [getD_set, getD_set, if_neg (c := next = i + 1 ∧ _) (by omega)]
  split
  · next heq =>
    obtain ⟨rfl, -⟩ := heq
    omega
  · exact hspaced

theorem Filling.fillOne (h : Filling number low high minGap (free + 1) s) (draws : Draws) :
    Filling number low high minGap free
      (fillOne number (low - 1) minGap s draws).1 := by
  obtain ⟨next, hnext, value, rest, hfree, hlo, hhi, heq⟩ := h.fillOne_eq draws
  rw [heq]
  have hmins := h.length_mins
  have hmaxs := h.length_maxs
  have hresult := h.length_result
  have hsetMins := getD_set_of_lt (l := s.mins) (hmins ▸ hnext) value
  have hsetMaxs := getD_set_of_lt (l := s.maxs) (hmaxs ▸ hnext) value
  have hsetResult := getD_set_of_lt (l := s.result) (hresult ▸ hnext) value
  have hsteps : next + 1 + (number - next - 1) = number := by omega
  have hraised := raised_raiseMins (by rw [length_set, hmins]) (Nat.succ_pos next) hsteps
    (spacedBut_set_mins h hlo)
  have hlowered := lowered_lowerMaxs (by rw [length_set, hmaxs]) hnext
    (spacedBut_set_maxs h hhi)
  generalize raiseMins minGap (number - next - 1) (next + 1) (s.mins.set next value) = mins'
    at hraised ⊢
  generalize lowerMaxs minGap next (s.maxs.set next value) = maxs' at hlowered ⊢
  -- each new list stays on its side of the other old one
  have hupper : ∀ j < number, mins'.getD j 0 ≤ s.maxs.getD j 0 := by
    refine hraised.bounded s.maxs h.spaced_maxs fun j hj => ?_
    rw [hsetMins]
    split
    · next heq => exact heq ▸ hhi
    · exact h.mins_le_maxs j hj
  have hlower : ∀ j < number, s.mins.getD j 0 ≤ maxs'.getD j 0 := by
    refine hlowered.bounded s.mins h.spaced_mins fun j hj => ?_
    rw [hsetMaxs]
    split
    · next heq => exact heq ▸ hlo
    · exact h.mins_le_maxs j hj
  have hminsLe : ∀ j, s.mins.getD j 0 ≤ mins'.getD j 0 := by
    intro j
    refine le_trans ?_ (hraised.le j)
    rw [hsetMins]
    split
    · next heq => exact heq ▸ hlo
    · exact le_refl _
  have hmaxsLe : ∀ j, maxs'.getD j 0 ≤ s.maxs.getD j 0 := by
    intro j
    refine le_trans (hlowered.le j) ?_
    rw [hsetMaxs]
    split
    · next heq => exact heq ▸ hhi
    · exact le_refl _
  have hminsBefore : ∀ j < next + 1, mins'.getD j 0 = if next = j then value else s.mins.getD j 0 :=
    fun j hj => (hraised.before j hj).trans (hsetMins j)
  have hmaxsAfter : ∀ j, next ≤ j → maxs'.getD j 0 = if next = j then value else s.maxs.getD j 0 :=
    fun j hj => (hlowered.after j hj).trans (hsetMaxs j)
  refine ⟨by rw [length_set, hresult], hraised.length, hlowered.length, hraised.spaced,
    hlowered.spaced, ?_, ?_, ?_, ?_, ?_⟩
  · intro j hj
    exact (h.low_le j hj).trans (hminsLe j)
  · intro j hj
    exact (hmaxsLe j).trans (h.le_high j hj)
  · -- below the slot the lower bounds are old, above it the upper bounds are
    intro j hj
    rcases lt_trichotomy j next with hlt | rfl | hgt
    · rw [hminsBefore j (by omega), if_neg (by omega)]
      exact hlower j hj
    · rw [hminsBefore j (by omega), hmaxsAfter j (le_refl _), if_pos rfl, if_pos rfl]
    · rw [hmaxsAfter j (by omega), if_neg (by omega)]
      exact hupper j hj
  · intro j hj
    show (s.result.set next value).getD j 0 = low - 1 ∨
      (mins'.getD j 0 = (s.result.set next value).getD j 0 ∧
        maxs'.getD j 0 = (s.result.set next value).getD j 0)
    rw [hsetResult]
    by_cases hj' : next = j
    · subst hj'
      rw [if_pos rfl, hminsBefore next (by omega), hmaxsAfter next (le_refl _), if_pos rfl,
        if_pos rfl]
      exact .inr ⟨rfl, rfl⟩
    · rw [if_neg hj']
      -- a slot that was filled has no room to move
      rcases h.filled j hj with hold | ⟨hmin, hmax⟩
      · exact .inl hold
      · have h₁ := hminsLe j
        have h₂ := hmaxsLe j
        have h₃ := hupper j hj
        have h₄ := hlower j hj
        right
        omega
  · have hlow := h.low_le next hnext
    have hne : ¬ (value == low - 1) = true := by
      rw [beq_iff_eq]
      omega
    have hlt := hresult ▸ hnext
    rw [getD_eq_getElem _ _ hlt] at hfree
    rw [count_set hlt, h.count, hfree, if_pos (beq_self_eq_true _), if_neg hne]
    omega

theorem Filling.fill (h : Filling number low high minGap free s) (draws : Draws) :
    Filling number low high minGap 0
      (fill number (low - 1) minGap free s draws).1 := by
  induction free generalizing s draws with
  | zero => exact h
  | succ free ih => exact ih (h.fillOne draws) _

theorem Filling.result_eq (h : Filling number low high minGap 0 s) {j : ℕ} (hj : j < number) :
    s.mins.getD j 0 = s.result.getD j 0 ∧ s.maxs.getD j 0 = s.result.getD j 0 := by
  rcases h.filled j hj with hfree | hfilled
  · have hlt := h.length_result ▸ hj
    rw [getD_eq_getElem _ _ hlt] at hfree
    have hmem := hfree ▸ getElem_mem hlt
    exact absurd (count_pos_iff.mpr hmem) (by rw [h.count]; omega)
  · exact hfilled

/-- The slots before the first round. -/
def initial (number : ℕ) (low high minGap : Int) : RandomSlots :=
  { result := replicate number (low - 1)
    mins := (range number).map fun (i : ℕ) => (i : Int) * minGap + low
    maxs := (range number).map fun (i : ℕ) => high - ((number : Int) - (i : Int) - 1) * minGap }

theorem getD_map_range {n j : ℕ} (hj : j < n) (f : ℕ → Int) :
    ((range n).map f).getD j 0 = f j := by
  rw [getD_eq_getElem _ _ (by simpa using hj)]
  simp

theorem filling_initial (hgap : 0 ≤ minGap)
    (hroom : 0 ≤ (high - low) - ((number : Int) - 1) * minGap) :
    Filling number low high minGap number (initial number low high minGap) := by
  have hmins : ∀ j < number,
      (initial number low high minGap).mins.getD j 0 = (j : Int) * minGap + low :=
    fun j hj => getD_map_range hj _
  have hmaxs : ∀ j < number, (initial number low high minGap).maxs.getD j 0 =
      high - ((number : Int) - (j : Int) - 1) * minGap :=
    fun j hj => getD_map_range hj _
  refine ⟨length_replicate, by simp [initial], by simp [initial], ?_, ?_, ?_, ?_, ?_, ?_,
    count_replicate_self⟩
  · intro i hi
    rw [hmins i (by omega), hmins (i + 1) hi]
    push_cast
    linarith
  · intro i hi
    rw [hmaxs i (by omega), hmaxs (i + 1) hi]
    push_cast
    linarith
  · intro j hj
    rw [hmins j hj]
    have hprod : 0 ≤ (j : Int) * minGap := Int.mul_nonneg (Int.natCast_nonneg _) hgap
    omega
  · intro j hj
    rw [hmaxs j hj]
    have hprod : 0 ≤ ((number : Int) - (j : Int) - 1) * minGap := Int.mul_nonneg (by omega) hgap
    omega
  · intro j hj
    rw [hmins j hj, hmaxs j hj]
    linarith
  · intro j hj
    left
    show (replicate number (low - 1)).getD j 0 = low - 1
    rw [getD_eq_getElem _ _ (by simpa using hj), getElem_replicate]

end TASQuake.RandomSlots

namespace TASQuake

open RandomSlots

variable {number low high minGap : Int} {draws rest : Draws} {integers : List Int}

/-- When `GenerateRandomIntegers` has an answer. -/
structure Feasible (number low high minGap : Int) : Prop where
  pos : 0 < number
  room : 0 ≤ (high - low) - (number - 1) * minGap
  le_max : number ≤ maxRandomIntegers

theorem generateRandomIntegers_of_feasible (h : Feasible number low high minGap) (draws : Draws) :
    generateRandomIntegers number low high minGap draws =
      .ok ((fill number.toNat (low - 1) minGap number.toNat
          (initial number.toNat low high minGap) draws).1.result,
        (fill number.toNat (low - 1) minGap number.toNat
          (initial number.toNat low high minGap) draws).2) := by
  have hcast := Int.toNat_of_nonneg h.pos.le
  unfold generateRandomIntegers
  rw [if_neg (by have := h.pos; omega), if_neg (by have := h.room; omega),
    if_neg (by have := h.le_max; omega)]
  unfold initial
  rw [hcast]

theorem feasible_of_generateRandomIntegers
    (h : generateRandomIntegers number low high minGap draws = .ok (integers, rest)) :
    Feasible number low high minGap := by
  unfold generateRandomIntegers at h
  split at h
  · cases h
  split at h
  · cases h
  split at h
  · cases h
  · constructor <;> omega

/-- What the integers look like: as many as asked for, within the interval, and spaced. -/
structure Chosen (number low high minGap : Int) (integers : List Int) : Prop where
  length : (integers.length : Int) = number
  mem : ∀ x ∈ integers, low ≤ x ∧ x ≤ high
  spaced : integers.IsChain fun x y => x + minGap ≤ y

/-- **The integers of `GenerateRandomIntegers`**, for every outcome of the draws. -/
theorem chosen_generateRandomIntegers (hgap : 0 ≤ minGap)
    (h : generateRandomIntegers number low high minGap draws = .ok (integers, rest)) :
    Chosen number low high minGap integers := by
  have hfeas := feasible_of_generateRandomIntegers h
  have hcast := Int.toNat_of_nonneg hfeas.pos.le
  rw [generateRandomIntegers_of_feasible hfeas] at h
  obtain ⟨rfl, -⟩ := Prod.mk.inj (Except.ok.inj h)
  have hroom : 0 ≤ (high - low) - (((number.toNat : ℕ) : Int) - 1) * minGap := by
    rw [hcast]
    exact hfeas.room
  have hfull := (filling_initial hgap hroom).fill draws
  generalize (fill number.toNat (low - 1) minGap number.toNat
    (initial number.toNat low high minGap) draws).1 = s at hfull ⊢
  have hlen := hfull.length_result
  refine ⟨by rw [hlen, hcast], ?_, ?_⟩
  · intro x hx
    obtain ⟨j, hj, rfl⟩ := List.getElem_of_mem hx
    have hj' : j < number.toNat := hlen ▸ hj
    obtain ⟨hmin, hmax⟩ := hfull.result_eq hj'
    rw [List.getD_eq_getElem _ _ hj] at hmin hmax
    exact ⟨hmin ▸ hfull.low_le j hj', hmax ▸ hfull.le_high j hj'⟩
  · rw [List.isChain_iff_getElem]
    intro i hi
    have hi' := hlen ▸ hi
    have hspaced := hfull.spaced_mins i hi'
    rwa [(hfull.result_eq (by omega : i < number.toNat)).1, (hfull.result_eq hi').1,
      List.getD_eq_getElem _ _ (by omega), List.getD_eq_getElem _ _ hi] at hspaced

theorem le_of_mem_generateRandomIntegers (hgap : 0 ≤ minGap)
    (h : generateRandomIntegers number low high minGap draws = .ok (integers, rest)) :
    ∀ x ∈ integers, low ≤ x :=
  fun x hx => ((chosen_generateRandomIntegers hgap h).mem x hx).1

end TASQuake
