import TASQuake.Interface.RationalArith
import TASQuake.Lib.Search
import TASQuake.Lib.Drops
import Mathlib.Data.List.GetD
import Mathlib.Data.List.Induction

/-!
# Finding the edge of a cliff

A cliff is a running maximum of the efficacies, seen from one of the ends of the list, next to a
smaller efficacy.  `CliffFinder::Init` takes the largest from either end, and of the two the larger
one, if there is one; then edge and ground are brought together by bisection.  Doubles are exact
rationals here.
-/

namespace TASQuake.Analysis.CliffSearch

open Lib CliffFinder List

variable {vec : List (ValueEfficacyPair ℚ)} {distance : Vec ℚ → Vec ℚ → ℚ}

/-! ## Cliffs -/

/-- A cliff seen from the start of the list. -/
structure RisingCliff (vec : List (ValueEfficacyPair ℚ)) (edge ground : Fin vec.length) :
    Prop where
  next : ground.val = edge.val + 1
  isMax : ∀ j, j ≤ edge → (vec.get j).efficacy ≤ (vec.get edge).efficacy
  drops : (vec.get ground).efficacy < (vec.get edge).efficacy

/-- A cliff seen from the end of the list. -/
structure FallingCliff (vec : List (ValueEfficacyPair ℚ)) (edge ground : Fin vec.length) :
    Prop where
  next : edge.val = ground.val + 1
  isMax : ∀ j, edge ≤ j → (vec.get j).efficacy ≤ (vec.get edge).efficacy
  drops : (vec.get ground).efficacy < (vec.get edge).efficacy

/-- The height of a cliff. -/
def height (vec : List (ValueEfficacyPair ℚ)) (edge ground : Fin vec.length) : ℚ :=
  (vec.get edge).efficacy - (vec.get ground).efficacy

/-- The heights of the cliffs seen from the start, and 0. -/
def risingHeights (vec : List (ValueEfficacyPair ℚ)) : Set ℚ :=
  insert 0 {x | ∃ edge ground, RisingCliff vec edge ground ∧ x = height vec edge ground}

/-- The heights of the cliffs seen from the end, and 0. -/
def fallingHeights (vec : List (ValueEfficacyPair ℚ)) : Set ℚ :=
  insert 0 {x | ∃ edge ground, FallingCliff vec edge ground ∧ x = height vec edge ground}

/-- The largest drops from the two ends are equally large. -/
def Tied (vec : List (ValueEfficacyPair ℚ)) : Prop :=
  ∃ x, IsGreatest (risingHeights vec) x ∧ IsGreatest (fallingHeights vec) x

/-! ## The two scans -/

/-- The efficacy of an entry. -/
def efficacyAt (vec : List (ValueEfficacyPair ℚ)) (i : ℕ) : ℚ :=
  (vec.getD i ⟨0, 0⟩).efficacy

theorem entry_eq (distance : Vec ℚ → Vec ℚ → ℚ) (vec : List (ValueEfficacyPair ℚ)) (i : ℕ) :
    entry (rationalArith distance) vec i = vec.getD i ⟨0, 0⟩ := by
  unfold entry
  show vec.getD i ⟨((0 : Int) : ℚ), ((0 : Int) : ℚ)⟩ = _
  rw [Int.cast_zero]

theorem efficacyAt_eq {i : ℕ} (hi : i < vec.length) :
    efficacyAt vec i = (vec.get ⟨i, hi⟩).efficacy := by
  unfold efficacyAt
  rw [getD_eq_getElem _ _ hi]
  rfl

/-- A scan of the source, for the order `pos` in which it looks at the entries. -/
def toScan (pos : ℕ → ℕ) (s : DropScan ℚ) : CliffFinder.Scan ℚ := ⟨pos s.index, s.maxValue, s.drop⟩

theorem scanStart_eq (distance : Vec ℚ → Vec ℚ → ℚ) (vec : List (ValueEfficacyPair ℚ))
    (pos : ℕ → ℕ) :
    scanStart (rationalArith distance) vec (pos 0) =
      toScan pos (dropScan (fun k => efficacyAt vec (pos k)) 0) := by
  unfold scanStart
  rw [entry_eq]
  show (⟨pos 0, _, ((0 : Int) : ℚ)⟩ : CliffFinder.Scan ℚ) = _
  rw [Int.cast_zero]
  rfl

theorem scanStep_eq (distance : Vec ℚ → Vec ℚ → ℚ) (vec : List (ValueEfficacyPair ℚ))
    (pos : ℕ → ℕ) (s : DropScan ℚ) (k : ℕ) :
    scanStep (rationalArith distance) vec (toScan pos s) (pos (k + 1)) (pos k) =
      toScan pos (s.step (fun k => efficacyAt vec (pos k)) k) := by
  unfold scanStep DropScan.step
  rw [entry_eq, entry_eq]
  show (if s.maxValue ≤ efficacyAt vec (pos (k + 1)) then _
    else if efficacyAt vec (pos k) = s.maxValue then _ else _) = _
  by_cases hle : s.maxValue ≤ efficacyAt vec (pos (k + 1))
  · rw [if_pos hle, if_pos hle]
    rfl
  · rw [if_neg hle, if_neg hle]
    by_cases hmax : efficacyAt vec (pos k) = s.maxValue
    · rw [if_pos hmax, if_pos hmax]
      show (if s.drop < s.maxValue - efficacyAt vec (pos (k + 1)) then _ else _) = _
      by_cases hdrop : s.drop < s.maxValue - efficacyAt vec (pos (k + 1))
      · rw [if_pos hdrop, if_pos hdrop]
        rfl
      · rw [if_neg hdrop, if_neg hdrop]
    · rw [if_neg hmax, if_neg hmax]

theorem foldl_scanStep_eq (distance : Vec ℚ → Vec ℚ → ℚ) (vec : List (ValueEfficacyPair ℚ))
    (pos : ℕ → ℕ) (m : ℕ) :
    (range m).foldl (fun s k =>
        scanStep (rationalArith distance) vec s (pos (k + 1)) (pos k))
      (scanStart (rationalArith distance) vec (pos 0)) =
      toScan pos (dropScan (fun k => efficacyAt vec (pos k)) m) := by
  induction m with
  | zero => exact scanStart_eq distance vec pos
  | succ m ih =>
    rw [range_succ, foldl_append, ih]
    exact scanStep_eq distance vec pos _ m

theorem rising_eq (distance : Vec ℚ → Vec ℚ → ℚ) (vec : List (ValueEfficacyPair ℚ)) :
    rising (rationalArith distance) vec =
      toScan id (dropScan (efficacyAt vec) (vec.length - 1)) := by
  unfold rising
  rw [range'_eq_map_range, foldl_map]
  refine Eq.trans ?_ (foldl_scanStep_eq distance vec id (vec.length - 1))
  refine foldl_ext _ _ _ fun s k _ => ?_
  rw [Nat.add_comm 1 k]
  rfl

/-- The entries in the order of the scan from the end. -/
def fromEnd (vec : List (ValueEfficacyPair ℚ)) (k : ℕ) : ℕ := vec.length - 1 - k

theorem fromEnd_lt {k : ℕ} (h : k < vec.length) : fromEnd vec k < vec.length := by
  unfold fromEnd
  omega

theorem falling_eq (distance : Vec ℚ → Vec ℚ → ℚ) (vec : List (ValueEfficacyPair ℚ)) :
    falling (rationalArith distance) vec =
      toScan (fromEnd vec) (dropScan (fun k => efficacyAt vec (fromEnd vec k)) (vec.length - 1)) := by
  unfold falling
  rw [range_eq_range', reverse_range', foldl_map]
  refine Eq.trans ?_ (foldl_scanStep_eq distance vec (fromEnd vec) (vec.length - 1))
  refine foldl_ext _ _ _ fun s k hk => ?_
  have hlt := mem_range.mp hk
  have hindex : 0 + (vec.length - 1) - 1 - k = fromEnd vec (k + 1) := by
    unfold fromEnd
    omega
  have hbefore : 0 + (vec.length - 1) - 1 - k + 1 = fromEnd vec k := by
    unfold fromEnd
    omega
  rw [hbefore, hindex]

/-! ### What the scans find -/

theorem risingCliff_iff {p : ℕ} (hp : p + 1 < vec.length) :
    DropsAfter (efficacyAt vec) p ↔ RisingCliff vec ⟨p, by omega⟩ ⟨p + 1, hp⟩ := by
  constructor
  · intro h
    refine ⟨rfl, fun j hj => ?_, ?_⟩
    · have hle := h.isMax j.val hj
      rwa [efficacyAt_eq j.isLt, efficacyAt_eq (by omega)] at hle
    · have hlt := h.lt
      rwa [efficacyAt_eq hp, efficacyAt_eq (by omega)] at hlt
  · intro h
    constructor
    · intro j hj
      rw [efficacyAt_eq (show j < vec.length by omega), efficacyAt_eq (by omega)]
      exact h.isMax ⟨j, by omega⟩ hj
    · rw [efficacyAt_eq hp, efficacyAt_eq (by omega)]
      exact h.drops

theorem fallingCliff_iff {p : ℕ} (hp : p + 1 < vec.length) :
    DropsAfter (fun k => efficacyAt vec (fromEnd vec k)) p ↔
      FallingCliff vec ⟨fromEnd vec p, fromEnd_lt (by omega)⟩
        ⟨fromEnd vec (p + 1), fromEnd_lt hp⟩ := by
  have hedge : fromEnd vec p < vec.length := fromEnd_lt (by omega)
  have hground : fromEnd vec (p + 1) < vec.length := fromEnd_lt hp
  constructor
  · intro h
    refine ⟨?_, fun j hj => ?_, ?_⟩
    · show fromEnd vec p = fromEnd vec (p + 1) + 1
      unfold fromEnd
      omega
    · have hj' : vec.length - 1 - p ≤ j.val := hj
      have hle := h.isMax (fromEnd vec j.val) (by unfold fromEnd; omega)
      have hback : fromEnd vec (fromEnd vec j.val) = j.val := by unfold fromEnd; omega
      rwa [hback, efficacyAt_eq j.isLt, efficacyAt_eq hedge] at hle
    · have hlt := h.lt
      rwa [efficacyAt_eq hground, efficacyAt_eq hedge] at hlt
  · intro h
    constructor
    · intro j hj
      rw [efficacyAt_eq (fromEnd_lt (show j < vec.length by omega)), efficacyAt_eq hedge]
      apply h.isMax
      show fromEnd vec p ≤ fromEnd vec j
      unfold fromEnd
      omega
    · rw [efficacyAt_eq hground, efficacyAt_eq hedge]
      exact h.drops

theorem risingHeights_eq (vec : List (ValueEfficacyPair ℚ)) :
    risingHeights vec = insert 0 {x | ∃ p < vec.length - 1, DropsAfter (efficacyAt vec) p ∧
      x = efficacyAt vec p - efficacyAt vec (p + 1)} := by
  unfold risingHeights
  congr 1
  ext x
  constructor
  · rintro ⟨⟨p, hp⟩, ⟨g, hg⟩, hcliff, rfl⟩
    have hnext : g = p + 1 := hcliff.next
    subst hnext
    refine ⟨p, by omega, (risingCliff_iff hg).mpr hcliff, ?_⟩
    rw [efficacyAt_eq hp, efficacyAt_eq hg]
    rfl
  · rintro ⟨p, hp, hdrop, rfl⟩
    have hg : p + 1 < vec.length := by omega
    refine ⟨_, _, (risingCliff_iff hg).mp hdrop, ?_⟩
    rw [efficacyAt_eq hg, efficacyAt_eq (by omega)]
    rfl

theorem fallingHeights_eq (vec : List (ValueEfficacyPair ℚ)) :
    fallingHeights vec = insert 0 {x | ∃ p < vec.length - 1,
      DropsAfter (fun k => efficacyAt vec (fromEnd vec k)) p ∧
        x = efficacyAt vec (fromEnd vec p) - efficacyAt vec (fromEnd vec (p + 1))} := by
  unfold fallingHeights
  congr 1
  ext x
  constructor
  · rintro ⟨⟨q, hq⟩, ⟨g, hg⟩, hcliff, rfl⟩
    have hnext : q = g + 1 := hcliff.next
    subst hnext
    have hedge : fromEnd vec (fromEnd vec (g + 1)) = g + 1 := by unfold fromEnd; omega
    have hground : fromEnd vec (fromEnd vec (g + 1) + 1) = g := by unfold fromEnd; omega
    have hp : fromEnd vec (g + 1) + 1 < vec.length := by unfold fromEnd; omega
    have hiff := fallingCliff_iff hp
    simp only [hedge, hground] at hiff
    refine ⟨fromEnd vec (g + 1), by omega, hiff.mpr hcliff, ?_⟩
    rw [hedge, hground, efficacyAt_eq hq, efficacyAt_eq hg]
    rfl
  · rintro ⟨p, hp, hdrop, rfl⟩
    have hg : p + 1 < vec.length := by omega
    refine ⟨_, _, (fallingCliff_iff hg).mp hdrop, ?_⟩
    rw [efficacyAt_eq, efficacyAt_eq]
    rfl

theorem isGreatest_rising (distance : Vec ℚ → Vec ℚ → ℚ) (vec : List (ValueEfficacyPair ℚ)) :
    IsGreatest (risingHeights vec) (rising (rationalArith distance) vec).drop := by
  rw [rising_eq, risingHeights_eq]
  exact (scanned_dropScan _ _).isGreatest

theorem isGreatest_falling (distance : Vec ℚ → Vec ℚ → ℚ) (vec : List (ValueEfficacyPair ℚ)) :
    IsGreatest (fallingHeights vec) (falling (rationalArith distance) vec).drop := by
  rw [falling_eq, fallingHeights_eq]
  exact (scanned_dropScan _ _).isGreatest

/-! ## The choice of a cliff -/

/-- Cliffs from either end. -/
def Cliff (vec : List (ValueEfficacyPair ℚ)) (edge ground : Fin vec.length) : Prop :=
  RisingCliff vec edge ground ∨ FallingCliff vec edge ground

theorem height_mem {edge ground : Fin vec.length} (h : Cliff vec edge ground) :
    height vec edge ground ∈ risingHeights vec ∪ fallingHeights vec := by
  rcases h with h | h
  · exact .inl (.inr ⟨edge, ground, h, rfl⟩)
  · exact .inr (.inr ⟨edge, ground, h, rfl⟩)

theorem exists_risingCliff (distance : Vec ℚ → Vec ℚ → ℚ)
    (hpos : 0 < (rising (rationalArith distance) vec).drop) :
    ∃ edge ground, RisingCliff vec edge ground ∧
      (rising (rationalArith distance) vec).drop = height vec edge ground ∧
      entry (rationalArith distance) vec
        (rising (rationalArith distance) vec).index = vec.get edge ∧
      entry (rationalArith distance) vec
        ((rising (rationalArith distance) vec).index + 1) = vec.get ground := by
  have hscan := scanned_dropScan (efficacyAt vec) (vec.length - 1)
  rw [rising_eq] at hpos ⊢
  obtain ⟨hlt, hdrop, heq⟩ := hscan.dropsAfter_of_pos hpos
  generalize dropScan (efficacyAt vec) (vec.length - 1) = s at *
  have hg : s.index + 1 < vec.length := by omega
  refine ⟨_, _, (risingCliff_iff hg).mp hdrop, ?_, ?_, ?_⟩
  · show s.drop = _
    rw [heq, efficacyAt_eq hg, efficacyAt_eq (by omega)]
    rfl
  · rw [entry_eq]
    exact getD_eq_getElem _ _ (show s.index < vec.length by omega)
  · rw [entry_eq]
    exact getD_eq_getElem _ _ hg

theorem exists_fallingCliff (distance : Vec ℚ → Vec ℚ → ℚ)
    (hpos : 0 < (falling (rationalArith distance) vec).drop) :
    ∃ edge ground, FallingCliff vec edge ground ∧
      (falling (rationalArith distance) vec).drop = height vec edge ground ∧
      entry (rationalArith distance) vec
        (falling (rationalArith distance) vec).index = vec.get edge ∧
      entry (rationalArith distance) vec
        ((falling (rationalArith distance) vec).index - 1) = vec.get ground := by
  have hscan := scanned_dropScan (fun k => efficacyAt vec (fromEnd vec k)) (vec.length - 1)
  rw [falling_eq] at hpos ⊢
  obtain ⟨hlt, hdrop, heq⟩ := hscan.dropsAfter_of_pos hpos
  generalize dropScan (fun k => efficacyAt vec (fromEnd vec k)) (vec.length - 1) = s at *
  have hg : s.index + 1 < vec.length := by omega
  refine ⟨_, _, (fallingCliff_iff hg).mp hdrop, ?_, ?_, ?_⟩
  · show s.drop = _
    rw [heq, efficacyAt_eq (fromEnd_lt hg), efficacyAt_eq (fromEnd_lt (by omega))]
    rfl
  · rw [entry_eq]
    exact getD_eq_getElem _ _ (fromEnd_lt (by omega))
  · have hground : fromEnd vec s.index - 1 = fromEnd vec (s.index + 1) := by
      unfold fromEnd
      omega
    rw [entry_eq]
    show vec.getD (fromEnd vec s.index - 1) _ = _
    rw [hground]
    exact getD_eq_getElem _ _ (fromEnd_lt hg)

/-- **What `CliffFinder::Init` chooses**: the highest cliff, unless the highest ones from the two
ends are equally high; then it changes nothing. -/
theorem init_cases (distance : Vec ℚ → Vec ℚ → ℚ) (self : CliffFinder ℚ)
    (hvec : 2 ≤ vec.length) (eps : ℚ) :
    (¬ Tied vec ∧ ∃ edge ground, Cliff vec edge ground ∧
      (∀ x ∈ risingHeights vec ∪ fallingHeights vec, x ≤ height vec edge ground) ∧
      self.init (rationalArith distance) vec eps =
        initAt (vec.get edge) (vec.get ground) eps) ∨
    (Tied vec ∧ self.init (rationalArith distance) vec eps = self) := by
  have hrising := isGreatest_rising distance vec
  have hfalling := isGreatest_falling distance vec
  have hrise0 := hrising.2 (Set.mem_insert _ _)
  have hfall0 := hfalling.2 (Set.mem_insert _ _)
  have htied : Tied vec ↔ (rising (rationalArith distance) vec).drop =
      (falling (rationalArith distance) vec).drop := by
    constructor
    · rintro ⟨x, hx, hx'⟩
      exact (hrising.unique hx).trans (hx'.unique hfalling)
    · intro heq
      exact ⟨_, hrising, heq ▸ hfalling⟩
  unfold init
  rw [if_neg (by omega)]
  by_cases hup : (falling (rationalArith distance) vec).drop <
      (rising (rationalArith distance) vec).drop
  · obtain ⟨edge, ground, hcliff, hheight, hedge, hground⟩ :=
      exists_risingCliff distance (hfall0.trans_lt hup)
    refine .inl ⟨fun h => hup.ne' (htied.mp h), edge, ground, .inl hcliff, ?_, ?_⟩
    · rintro x (hx | hx)
      · exact hheight ▸ hrising.2 hx
      · exact hheight ▸ (hfalling.2 hx).trans hup.le
    · rw [if_pos hup, hedge, hground]
  · rw [if_neg hup]
    by_cases hdown : (rising (rationalArith distance) vec).drop <
        (falling (rationalArith distance) vec).drop
    · obtain ⟨edge, ground, hcliff, hheight, hedge, hground⟩ :=
        exists_fallingCliff distance (hrise0.trans_lt hdown)
      refine .inl ⟨fun h => hdown.ne (htied.mp h), edge, ground, .inr hcliff, ?_, ?_⟩
      · rintro x (hx | hx)
        · exact hheight ▸ (hrising.2 hx).trans hdown.le
        · exact hheight ▸ hfalling.2 hx
      · rw [if_pos hdown, hedge, hground]
    · rw [if_neg hdown]
      exact .inr ⟨htied.mpr (le_antisymm (not_lt.mp hup) (not_lt.mp hdown)), rfl⟩

/-! ## Bisection -/

theorem getValue_of_not_finished {f : CliffFinder ℚ} (h : f.state ≠ .finished) :
    f.getValue (rationalArith distance) = (f.edge + f.ground) / 2 := by
  unfold getValue
  rw [if_neg h]
  simp

/-- What one report does to a search that is in progress. -/
structure Halved (f : CliffFinder ℚ) (tried result : ℚ) (f' : CliffFinder ℚ) : Prop where
  distance_eq : |f'.edge - f'.ground| = |f.edge - f.ground| / 2
  le_efficacy : f.edgeEfficacy ≤ f'.edgeEfficacy
  edge_eq : (f'.edge = tried ∧ f'.edgeEfficacy = result) ∨
    (f'.edge = f.edge ∧ f'.edgeEfficacy = f.edgeEfficacy)
  state_eq : f'.state = if |f'.edge - f'.ground| < f.epsilon then .finished else f.state
  epsilon_eq : f'.epsilon = f.epsilon

theorem halved_report {f : CliffFinder ℚ} (h : f.state ≠ .finished) (result : ℚ) :
    Halved f (f.getValue (rationalArith distance)) result
      (f.report (rationalArith distance) result) := by
  have hvalue : f.getValue (rationalArith distance) = (f.edge + f.ground) / 2 :=
    getValue_of_not_finished h
  unfold report
  rw [hvalue]
  dsimp only
  by_cases hle : f.edgeEfficacy ≤ result
  · rw [if_pos hle]
    dsimp only
    have hhalf := abs_half_sub f.edge f.ground
    split
    · next hnear => exact ⟨hhalf, hle, .inl ⟨rfl, rfl⟩, (if_pos hnear).symm, rfl⟩
    · next hfar => exact ⟨hhalf, hle, .inl ⟨rfl, rfl⟩, (if_neg hfar).symm, rfl⟩
  · rw [if_neg hle]
    have hhalf := abs_sub_half f.edge f.ground
    split
    · next hnear => exact ⟨hhalf, le_rfl, .inr ⟨rfl, rfl⟩, (if_pos hnear).symm, rfl⟩
    · next hfar => exact ⟨hhalf, le_rfl, .inr ⟨rfl, rfl⟩, (if_neg hfar).symm, rfl⟩

/-- A sequence of reports. -/
def reports (distance : Vec ℚ → Vec ℚ → ℚ) (f : CliffFinder ℚ) (results : List ℚ) :
    CliffFinder ℚ :=
  results.foldl (fun f result => f.report (rationalArith distance) result) f

theorem reports_concat (f : CliffFinder ℚ) (results : List ℚ) (result : ℚ) :
    reports distance f (results ++ [result]) =
      (reports distance f results).report (rationalArith distance) result := by
  unfold reports
  rw [foldl_append]
  rfl

/-- A search after some reports, if `k` of them are needed to finish it. -/
structure Bisected (distance : Vec ℚ → Vec ℚ → ℚ) (f : CliffFinder ℚ) (k : ℕ)
    (results : List ℚ) : Prop where
  /-- it is finished after `k` reports and not before -/
  state_eq : (reports distance f results).state =
    if results.length < k then .inProgress else .finished
  /-- every report halves the distance -/
  distance_eq : |(reports distance f results).edge - (reports distance f results).ground| =
    |f.edge - f.ground| / 2 ^ results.length
  /-- the edge is the first one, or the efficacy of the edge was reported for it -/
  edge_reported : ((reports distance f results).edge = f.edge ∧
      (reports distance f results).edgeEfficacy = f.edgeEfficacy) ∨
    ∃ before result after, results = before ++ result :: after ∧
      (reports distance f results).edge =
        (reports distance f before).getValue (rationalArith distance) ∧
      (reports distance f results).edgeEfficacy = result
  /-- the next report does not lower the efficacy of the edge -/
  le_next : results.length < k → ∀ result, (reports distance f results).edgeEfficacy ≤
    (reports distance f (results ++ [result])).edgeEfficacy

theorem bisected {f : CliffFinder ℚ} (hf : f.state = .inProgress) {k : ℕ}
    (hk : IsLeast {k : ℕ | 1 ≤ k ∧ |f.edge - f.ground| / 2 ^ k < f.epsilon} k)
    (results : List ℚ) (hlen : results.length ≤ k) :
    Bisected distance f k results ∧ (reports distance f results).epsilon = f.epsilon := by
  induction results using reverseRecOn with
  | nil =>
    have hpos : 0 < k := hk.1.1
    have hstart : f.state ≠ .finished := by
      rw [hf]
      decide
    refine ⟨⟨?_, ?_, .inl ⟨rfl, rfl⟩, fun _ result => ?_⟩, rfl⟩
    · rw [length_nil, if_pos hpos]
      exact hf
    · rw [length_nil, pow_zero, div_one]
      rfl
    · exact (halved_report hstart result).le_efficacy
  | append_singleton results result ih =>
    have hlt : results.length < k := by
      rw [length_append, length_singleton] at hlen
      omega
    obtain ⟨hbisected, heps⟩ := ih hlt.le
    have hprogress : (reports distance f results).state = .inProgress := by
      rw [hbisected.state_eq, if_pos hlt]
    have hhalved : Halved (reports distance f results)
        ((reports distance f results).getValue (rationalArith distance)) result
        (reports distance f (results ++ [result])) := by
      rw [reports_concat]
      exact halved_report (by rw [hprogress]; decide) result
    have hdist : |(reports distance f (results ++ [result])).edge -
        (reports distance f (results ++ [result])).ground| =
        |f.edge - f.ground| / 2 ^ (results ++ [result]).length := by
      rw [hhalved.distance_eq, hbisected.distance_eq, length_append, length_singleton,
        pow_succ, div_div]
    have hstate : (reports distance f (results ++ [result])).state =
        if (results ++ [result]).length < k then .inProgress else .finished := by
      rw [hhalved.state_eq, hdist, heps, hprogress]
      by_cases hend : (results ++ [result]).length < k
      · -- fewer than `k` halvings do not suffice
        have hfar : ¬ |f.edge - f.ground| / 2 ^ (results ++ [result]).length < f.epsilon := by
          intro hnear
          have hle := hk.2 ⟨by simp, hnear⟩
          omega
        rw [if_neg hfar, if_pos hend]
      · have heq := le_antisymm hlen (not_lt.mp hend)
        rw [heq, if_pos hk.1.2, if_neg (lt_irrefl k)]
    refine ⟨⟨hstate, hdist, ?_, fun hnext next => ?_⟩, hhalved.epsilon_eq.trans heps⟩
    · rcases hhalved.edge_eq with ⟨hedge, heff⟩ | ⟨hedge, heff⟩
      · exact .inr ⟨results, result, [], rfl, hedge, heff⟩
      · rcases hbisected.edge_reported with ⟨hedge', heff'⟩ | ⟨before, r, after, hsplit, hedge', heff'⟩
        · exact .inl ⟨hedge.trans hedge', heff.trans heff'⟩
        · refine .inr ⟨before, r, after ++ [result], ?_, hedge.trans hedge', heff.trans heff'⟩
          rw [hsplit, append_assoc, cons_append]
    · rw [reports_concat f (results ++ [result])]
      refine (halved_report ?_ next).le_efficacy
      rw [hstate, if_pos hnext]
      decide

/-- **The choice of a cliff and the bisection are sound.** If `CliffFinder::Init` starts a search,
edge and ground are neighbours, the efficacy drops from the edge to the ground, and no running
maximum, from either end, is followed by a larger drop.  Every report halves the distance of edge
and ground and never lowers the efficacy of the edge, which is the first one or a value tried with
its efficacy; the first report, from the first one on, that brings the distance below `eps` finishes
the search. -/
theorem cliff_search_sound (distance : Vec ℚ → Vec ℚ → ℚ) (self : CliffFinder ℚ)
    (hself : self.state ≠ .inProgress) (vec : List (ValueEfficacyPair ℚ)) (hvec : 2 ≤ vec.length)
    (eps : ℚ) (heps : 0 < eps)
    (hinit : (self.init (rationalArith distance) vec eps).state = .inProgress) :
    (∃ edge ground, Cliff vec edge ground ∧
      (∀ edge' ground', Cliff vec edge' ground' →
        height vec edge' ground' ≤ height vec edge ground) ∧
      self.init (rationalArith distance) vec eps =
        initAt (vec.get edge) (vec.get ground) eps) ∧
    ∃ k, IsLeast {k : ℕ | 1 ≤ k ∧ |(self.init (rationalArith distance) vec eps).edge -
        (self.init (rationalArith distance) vec eps).ground| / 2 ^ k < eps} k ∧
      ∀ results : List ℚ, results.length ≤ k →
        Bisected distance (self.init (rationalArith distance) vec eps) k results := by
  rcases init_cases distance self hvec eps with ⟨-, edge, ground, hcliff, hmax, heq⟩ | ⟨-, heq⟩
  · refine ⟨⟨edge, ground, hcliff, fun edge' ground' h => hmax _ (height_mem h), heq⟩, ?_⟩
    have hstored : (self.init (rationalArith distance) vec eps).epsilon = eps := by
      rw [heq]
      rfl
    obtain ⟨k, hk⟩ := exists_isLeast_halvings
      |(self.init (rationalArith distance) vec eps).edge -
        (self.init (rationalArith distance) vec eps).ground| heps
    refine ⟨k, hk, fun results hlen => (bisected hinit ?_ results hlen).1⟩
    rw [hstored]
    exact hk
  · rw [heq] at hinit
    exact absurd hinit hself

/-! ### A list with a cliff -/

/-- Three values; the efficacy drops by 3 after the second one and by 2 before it. -/
def threeValues : List (ValueEfficacyPair ℚ) := [⟨0, 1⟩, ⟨1, 3⟩, ⟨2, 0⟩]

/-- The finder of the examples before it is set up. -/
def idleFinder : CliffFinder ℚ := reset (rationalArith fun _ _ => 0)

theorem cliff_search_sound_threeValues :
    (idleFinder.init (rationalArith fun _ _ => 0) threeValues (1 / 4)).edge = 1 ∧
      (idleFinder.init (rationalArith fun _ _ => 0) threeValues (1 / 4)).ground = 2 ∧
      ∃ edge ground, Cliff threeValues edge ground ∧
        idleFinder.init (rationalArith fun _ _ => 0) threeValues (1 / 4) =
          initAt (threeValues.get edge) (threeValues.get ground) (1 / 4) := by
  have hinit : (idleFinder.init (rationalArith fun _ _ => 0) threeValues (1 / 4)).state =
      .inProgress := by decide +kernel
  refine ⟨by decide +kernel, by decide +kernel, ?_⟩
  obtain ⟨⟨edge, ground, hcliff, -, heq⟩, -⟩ := cliff_search_sound (fun _ _ => 0) idleFinder nofun
    threeValues (by decide) (1 / 4) (by norm_num) hinit
  exact ⟨edge, ground, hcliff, heq⟩

end TASQuake.Analysis.CliffSearch
