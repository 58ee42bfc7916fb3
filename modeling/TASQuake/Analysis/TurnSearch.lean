import TASQuake.Analysis.CliffSearch
import TASQuake.Lib.Run
import Mathlib.Algebra.Order.Field.Power

/-!
# The range of a turn search

`BinSearcher` measures the result at six points, every one twice as far from the original value as
the one before it (`Mapping`), and then looks for the edge of the highest cliff (`Searching`).  The
second phase is about doubles as exact rationals.

If the highest cliffs from the two ends are equally high, the cliff finder of the second phase has
0 for edge and ground.  From then on it proposes 0, which the range need not contain.
-/

namespace TASQuake.Analysis.TurnSearch

open Lib CliffSearch BinSearcher List

/-! ## The first phase -/

section Mapping

variable {F R : Type} {ops : MutatorArith F R} {orig efficacy max eps : R} {results : List R}
  {s : BinSearcher R}

/-- The value at which the result number `i` is measured. -/
def mappingPoint (ops : MutatorArith F R) (orig max : R) (i : ℕ) : R :=
  getMappingValue ops i mappingIterations max orig

/-- What has been measured after some results. -/
def mapped (ops : MutatorArith F R) (orig efficacy max : R) (results : List R) :
    List (ValueEfficacyPair R) :=
  ⟨orig, efficacy⟩ :: results.mapIdx fun i result => ⟨mappingPoint ops orig max i, result⟩

theorem mapped_concat (results : List R) (result : R) :
    mapped ops orig efficacy max (results ++ [result]) =
      mapped ops orig efficacy max results ++
        [⟨mappingPoint ops orig max results.length, result⟩] := by
  unfold mapped
  rw [mapIdx_concat]
  rfl

theorem length_mapped (results : List R) :
    (mapped ops orig efficacy max results).length = results.length + 1 := by
  simp [mapped]

/-- The searcher while it measures the points of the range. -/
structure Mapping (ops : MutatorArith F R) (orig efficacy max eps : R) (results : List R)
    (s : BinSearcher R) : Prop where
  length_le : results.length ≤ 5
  state : s.state = .mappingSpace
  iteration : s.mappingIteration = results.length
  originalValue : s.originalValue = orig
  rangeMax : s.rangeMax = max
  eps_eq : s.eps = eps
  mapping : s.mapping = mapped ops orig efficacy max results
  cliffer : s.cliffer = CliffFinder.reset ops

theorem mapping_init (h : s.mappingIteration = 0) :
    Mapping ops orig efficacy max eps [] (s.init ops orig efficacy max eps) :=
  ⟨Nat.zero_le 5, rfl, h, rfl, rfl, rfl, rfl, rfl⟩

theorem Mapping.getValue (h : Mapping ops orig efficacy max eps results s) :
    s.getValue ops = some (mappingPoint ops orig max results.length) := by
  unfold BinSearcher.getValue
  rw [h.state, h.iteration, h.originalValue, h.rangeMax]
  rfl

variable [LinearOrder R]

theorem Mapping.report (h : Mapping ops orig efficacy max eps results s)
    (hlen : results.length < 5) (result : R) :
    ∃ s', s.report ops result = some s' ∧
      Mapping ops orig efficacy max eps (results ++ [result]) s' := by
  have hne : mappingIterations ≠ s.mappingIteration := by
    rw [h.iteration]
    exact (Nat.ne_of_lt hlen).symm
  unfold BinSearcher.report
  rw [h.state, h.getValue]
  simp only [Option.map_some]
  rw [if_neg hne]
  refine ⟨_, rfl, ⟨?_, rfl, ?_, h.originalValue, h.rangeMax, h.eps_eq, ?_, h.cliffer⟩⟩
  · rw [length_append]
    exact hlen
  · simp [h.iteration]
  · rw [mapped_concat, ← h.mapping]

/-- The searcher when the last point has been measured. -/
structure HandedOver (ops : MutatorArith F R) (orig efficacy max eps : R) (results : List R)
    (s : BinSearcher R) : Prop where
  state : s.state = .binarySearch
  mapping : s.mapping = mapped ops orig efficacy max results
  cliffer : s.cliffer =
    (CliffFinder.reset ops).init ops (mapped ops orig efficacy max results) eps

theorem Mapping.report_last (h : Mapping ops orig efficacy max eps results s)
    (hlen : results.length = 5) (result : R) :
    ∃ s', s.report ops result = some s' ∧
      HandedOver ops orig efficacy max eps (results ++ [result]) s' := by
  have heq : mappingIterations = s.mappingIteration := by
    rw [h.iteration, hlen]
    rfl
  unfold BinSearcher.report
  rw [h.state, h.getValue]
  simp only [Option.map_some]
  rw [if_pos heq]
  refine ⟨_, rfl, rfl, ?_, ?_⟩
  · rw [mapped_concat, ← h.mapping]
  · rw [mapped_concat, ← h.mapping, ← h.eps_eq, ← h.cliffer]

end Mapping

/-! ## The points of the range -/

variable {distance : Vec ℚ → Vec ℚ → ℚ} {orig efficacy max eps : ℚ} {results : List ℚ}
  {s : BinSearcher ℚ}

theorem mappingPoint_eq {i : ℕ} (hi : i ≤ 5) :
    mappingPoint (rationalArith distance) orig max i = orig + (max - orig) * 2 ^ ((i : ℤ) - 5) := by
  have hpow : (2 : ℚ) ^ ((i : ℤ) - 5) = (2 ^ (5 - i))⁻¹ := by
    have hexp : (i : ℤ) - 5 = -((5 - i : ℕ) : ℤ) := by omega
    rw [hexp, zpow_neg, zpow_natCast]
  unfold mappingPoint getMappingValue mappingIterations
  rw [hpow]
  simp [div_eq_mul_inv]

theorem point_mem {i : ℕ} (hi : i ≤ 5) :
    orig + (max - orig) * 2 ^ ((i : ℤ) - 5) ∈ Set.uIcc orig max := by
  have hpos : (0 : ℚ) ≤ 2 ^ ((i : ℤ) - 5) := zpow_nonneg zero_le_two _
  have hle : (2 : ℚ) ^ ((i : ℤ) - 5) ≤ 1 := zpow_le_one_of_nonpos₀ one_le_two (by omega)
  generalize (2 : ℚ) ^ ((i : ℤ) - 5) = w at hpos hle
  rw [Set.mem_uIcc]
  rcases le_total orig max with h | h
  · left
    constructor <;> nlinarith
  · right
    constructor <;> nlinarith

/-- The same pairs as `mapped`, with the points written out. -/
def measured (orig efficacy max : ℚ) (results : List ℚ) : List (ValueEfficacyPair ℚ) :=
  ⟨orig, efficacy⟩ ::
    results.mapIdx fun i result => ⟨orig + (max - orig) * 2 ^ ((i : ℤ) - 5), result⟩

theorem value_mem_of_mem_measured (hlen : results.length ≤ 6) {p : ValueEfficacyPair ℚ}
    (hp : p ∈ measured orig efficacy max results) : p.value ∈ Set.uIcc orig max := by
  unfold measured at hp
  rcases mem_cons.mp hp with rfl | hp
  · exact Set.left_mem_uIcc
  · obtain ⟨i, hi, rfl⟩ := mem_mapIdx.mp hp
    exact point_mem (by omega)

theorem mapped_eq (hlen : results.length ≤ 6) :
    mapped (rationalArith distance) orig efficacy max results =
      measured orig efficacy max results := by
  unfold mapped measured
  congr 1
  apply ext_getElem
  · simp
  · intro i hi _
    rw [length_mapIdx] at hi
    rw [getElem_mapIdx, getElem_mapIdx, mappingPoint_eq (by omega)]

/-! ## The second phase -/

/-- The searcher while it bisects and when it is done, with both ends of the search in a set. -/
structure Searching (ends : Set ℚ) (s : BinSearcher ℚ) : Prop where
  state : s.state = .binarySearch ∨ s.state = .finished ∧ s.cliffer.state = .finished
  edge : s.cliffer.edge ∈ ends
  ground : s.cliffer.ground ∈ ends

/-- The set has the midpoint of any two of its elements. -/
def HasMidpoints (ends : Set ℚ) : Prop := ∀ a ∈ ends, ∀ b ∈ ends, (a + b) / 2 ∈ ends

theorem hasMidpoints_uIcc : HasMidpoints (Set.uIcc orig max) := fun _ ha _ hb => half_mem_uIcc ha hb

theorem hasMidpoints_zero : HasMidpoints {0} := by
  rintro a rfl b rfl
  norm_num

variable {ends : Set ℚ}

theorem cliffer_getValue_mem (distance : Vec ℚ → Vec ℚ → ℚ) (hmid : HasMidpoints ends)
    {f : CliffFinder ℚ} (hedge : f.edge ∈ ends) (hground : f.ground ∈ ends) :
    f.getValue (rationalArith distance) ∈ ends := by
  by_cases hfin : f.state = .finished
  · unfold CliffFinder.getValue
    rwa [if_pos hfin]
  · rw [getValue_of_not_finished hfin]
    exact hmid _ hedge _ hground

theorem cliffer_report_mem (distance : Vec ℚ → Vec ℚ → ℚ) (hmid : HasMidpoints ends)
    {f : CliffFinder ℚ} (hedge : f.edge ∈ ends) (hground : f.ground ∈ ends) (result : ℚ) :
    (f.report (rationalArith distance) result).edge ∈ ends ∧
      (f.report (rationalArith distance) result).ground ∈ ends := by
  have hvalue := cliffer_getValue_mem distance hmid hedge hground
  unfold CliffFinder.report
  dsimp only
  by_cases hle : f.edgeEfficacy ≤ result
  · rw [if_pos hle]
    split
    · exact ⟨hvalue, hground⟩
    · exact ⟨hvalue, hground⟩
  · rw [if_neg hle]
    split
    · exact ⟨hedge, hvalue⟩
    · exact ⟨hedge, hvalue⟩

theorem Searching.getValue (hmid : HasMidpoints ends) (h : Searching ends s) :
    ∃ v ∈ ends, s.getValue (rationalArith distance) = some v := by
  refine ⟨_, cliffer_getValue_mem distance hmid h.edge h.ground, ?_⟩
  unfold BinSearcher.getValue
  rcases h.state with hstate | ⟨hstate, hfin⟩
  · rw [hstate]
  · rw [hstate]
    exact if_pos hfin

theorem Searching.report (hmid : HasMidpoints ends) (h : Searching ends s) (result : ℚ) :
    ∃ s', s.report (rationalArith distance) result = some s' ∧ Searching ends s' := by
  have hends := cliffer_report_mem distance hmid h.edge h.ground result
  have hreport : s.report (rationalArith distance) result = some
      { s with
        cliffer := s.cliffer.report (rationalArith distance) result
        state := if (s.cliffer.report (rationalArith distance) result).state = .finished
          then .finished else s.state } := by
    unfold BinSearcher.report
    rcases h.state with hstate | ⟨hstate, -⟩ <;> rw [hstate]
  refine ⟨_, hreport, ?_, hends.1, hends.2⟩
  by_cases hfin : (s.cliffer.report (rationalArith distance) result).state = .finished
  · rw [if_pos hfin]
    exact .inr ⟨rfl, hfin⟩
  · rw [if_neg hfin]
    left
    rcases h.state with hstate | ⟨-, hcliffer⟩
    · exact hstate
    · -- a cliff finder that is done stays so
      refine absurd ?_ hfin
      unfold CliffFinder.report
      dsimp only
      split <;> split <;> first | rfl | exact hcliffer

/-! ## Any sequence of results -/

/-- What the searcher holds after some results. -/
structure AfterResults (distance : Vec ℚ → Vec ℚ → ℚ) (orig efficacy max eps : ℚ)
    (results : List ℚ) (s : BinSearcher ℚ) : Prop where
  mapping : results.length ≤ 5 →
    Mapping (rationalArith distance) orig efficacy max eps results s
  tied : 6 ≤ results.length → Tied (measured orig efficacy max (results.take 6)) → Searching {0} s
  chosen : 6 ≤ results.length → ¬ Tied (measured orig efficacy max (results.take 6)) →
    Searching (Set.uIcc orig max) s

theorem Mapping.afterResults
    (h : Mapping (rationalArith distance) orig efficacy max eps results s) :
    AfterResults distance orig efficacy max eps results s := by
  have hlen := h.length_le
  exact ⟨fun _ => h, fun h6 => absurd h6 (by omega), fun h6 => absurd h6 (by omega)⟩

theorem HandedOver.afterResults (hlen : results.length = 6)
    (h : HandedOver (rationalArith distance) orig efficacy max eps results s) :
    AfterResults distance orig efficacy max eps results s := by
  have htake := take_of_length_le hlen.le
  have hvec : 2 ≤ (mapped (rationalArith distance) orig efficacy max results).length := by
    rw [length_mapped, hlen]
    norm_num
  have hinit := init_cases distance (CliffFinder.reset (rationalArith distance)) hvec eps
  rw [← h.cliffer, mapped_eq hlen.le] at hinit
  refine ⟨fun h5 => absurd h5 (by omega), fun _ htied => ?_, fun _ hchosen => ?_⟩
  · rw [htake] at htied
    rcases hinit with ⟨hnot, -⟩ | ⟨-, heq⟩
    · exact absurd htied hnot
    · refine ⟨.inl h.state, ?_, ?_⟩
      · rw [heq]
        exact Int.cast_zero
      · rw [heq]
        exact Int.cast_zero
  · rw [htake] at hchosen
    rcases hinit with ⟨-, edge, ground, -, -, heq⟩ | ⟨htied, -⟩
    · refine ⟨.inl h.state, ?_, ?_⟩
      · rw [heq]
        exact value_mem_of_mem_measured hlen.le (get_mem _ edge)
      · rw [heq]
        exact value_mem_of_mem_measured hlen.le (get_mem _ ground)
    · exact absurd htied hchosen

theorem AfterResults.report (h : AfterResults distance orig efficacy max eps results s)
    (result : ℚ) :
    ∃ s', s.report (rationalArith distance) result = some s' ∧
      AfterResults distance orig efficacy max eps (results ++ [result]) s' := by
  have hlen : (results ++ [result]).length = results.length + 1 := by simp
  rcases Nat.lt_trichotomy results.length 5 with h5 | h5 | h5
  · obtain ⟨s', hs', hmapping⟩ := (h.mapping (by omega)).report h5 result
    exact ⟨s', hs', hmapping.afterResults⟩
  · obtain ⟨s', hs', hover⟩ := (h.mapping h5.le).report_last h5 result
    exact ⟨s', hs', hover.afterResults (by omega)⟩
  · have htake : (results ++ [result]).take 6 = results.take 6 := take_append_of_le_length h5
    by_cases htied : Tied (measured orig efficacy max (results.take 6))
    · obtain ⟨s', hs', hsearching⟩ := (h.tied h5 htied).report hasMidpoints_zero result
      refine ⟨s', hs', fun hle => absurd hle (by omega), fun _ _ => hsearching, fun _ hnot => ?_⟩
      rw [htake] at hnot
      exact absurd htied hnot
    · obtain ⟨s', hs', hsearching⟩ := (h.chosen h5 htied).report hasMidpoints_uIcc result
      refine ⟨s', hs', fun hle => absurd hle (by omega), fun _ hyes => ?_, fun _ _ => hsearching⟩
      rw [htake] at hyes
      exact absurd hyes htied

/-- `Reset`, `Init` and a sequence of reports. -/
def search (distance : Vec ℚ → Vec ℚ → ℚ) (self : BinSearcher ℚ) (orig efficacy max eps : ℚ)
    (results : List ℚ) : Option (BinSearcher ℚ) :=
  run (fun s result => s.report (rationalArith distance) result)
    ((self.reset (rationalArith distance)).init (rationalArith distance) orig efficacy max eps)
    results

variable (self : BinSearcher ℚ)

theorem afterResults_search (results : List ℚ) :
    ∃ s, search distance self orig efficacy max eps results = some s ∧
      AfterResults distance orig efficacy max eps results s := by
  apply history_run
  · intro results s result h
    exact h.report result
  · exact (mapping_init rfl).afterResults

/-- The value that `GetValue` proposes after some results. -/
def proposal (distance : Vec ℚ → Vec ℚ → ℚ) (self : BinSearcher ℚ) (orig efficacy max eps : ℚ)
    (results : List ℚ) : Option ℚ :=
  (search distance self orig efficacy max eps results).bind
    fun s => s.getValue (rationalArith distance)

/-- Every value proposed, from `Init` to the last of the results, is in the range. -/
def StaysInRange (distance : Vec ℚ → Vec ℚ → ℚ) (self : BinSearcher ℚ)
    (orig efficacy max eps : ℚ) (results : List ℚ) : Prop :=
  ∀ k ≤ results.length, ∃ v ∈ Set.uIcc orig max,
    proposal distance self orig efficacy max eps (results.take k) = some v

theorem proposal_mapping (hlen : results.length ≤ 5) :
    proposal distance self orig efficacy max eps results =
      some (orig + (max - orig) * 2 ^ ((results.length : ℤ) - 5)) := by
  obtain ⟨s, hs, h⟩ := afterResults_search self results
  unfold proposal
  rw [hs, ← mappingPoint_eq hlen]
  exact (h.mapping hlen).getValue

theorem proposal_tied (hlen : 6 ≤ results.length)
    (htied : Tied (measured orig efficacy max (results.take 6))) :
    proposal distance self orig efficacy max eps results = some 0 := by
  obtain ⟨s, hs, h⟩ := afterResults_search self results
  obtain ⟨v, rfl, hv⟩ := (h.tied hlen htied).getValue hasMidpoints_zero
  unfold proposal
  rw [hs]
  exact hv

theorem proposal_chosen (hlen : 6 ≤ results.length)
    (hchosen : ¬ Tied (measured orig efficacy max (results.take 6))) :
    ∃ v ∈ Set.uIcc orig max, proposal distance self orig efficacy max eps results = some v := by
  obtain ⟨s, hs, h⟩ := afterResults_search self results
  obtain ⟨v, hmem, hv⟩ := (h.chosen hlen hchosen).getValue hasMidpoints_uIcc
  refine ⟨v, hmem, ?_⟩
  unfold proposal
  rw [hs]
  exact hv

/-- **A turn search stays in its range** exactly if the cliffs that it has measured do not tie, or
if 0 is in the range. -/
theorem turn_search_in_range_iff (distance : Vec ℚ → Vec ℚ → ℚ) (self : BinSearcher ℚ)
    (orig efficacy max eps : ℚ) (results : List ℚ) :
    StaysInRange distance self orig efficacy max eps results ↔
      (6 ≤ results.length → Tied (measured orig efficacy max (results.take 6)) →
        0 ∈ Set.uIcc orig max) := by
  constructor
  · intro h hlen htied
    obtain ⟨v, hmem, hv⟩ := h 6 hlen
    have htake : (results.take 6).take 6 = results.take 6 := take_of_length_le (by simp)
    rw [proposal_tied self (by simp [hlen]) (htake.symm ▸ htied)] at hv
    cases hv
    exact hmem
  · intro h k hk
    have hlen : (results.take k).length = k := by simp [hk]
    rcases Nat.lt_or_ge 5 k with h6 | h5
    · have htake : (results.take k).take 6 = results.take 6 := by
        rw [take_take, Nat.min_eq_left h6]
      by_cases htied : Tied (measured orig efficacy max (results.take 6))
      · exact ⟨0, h (by omega) htied, proposal_tied self (by omega) (htake.symm ▸ htied)⟩
      · exact proposal_chosen self (by omega) (htake.symm ▸ htied)
    · exact ⟨_, point_mem (by omega), proposal_mapping self (by omega)⟩

/-- A searcher that has just been constructed, for positions without a distance. -/
def newSearcher : BinSearcher ℚ := blank (rationalArith fun _ _ => 0)

/-- All results are equal: after the mapping of the range from 10 to 20 the proposal is 0. -/
theorem flat_results_leave_range :
    proposal (fun _ _ => 0) newSearcher 10 5 20 1 [5, 5, 5, 5, 5, 5] = some 0 ∧
      ¬ StaysInRange (fun _ _ => 0) newSearcher 10 5 20 1 [5, 5, 5, 5, 5, 5] := by
  have hvalue : proposal (fun _ _ => 0) newSearcher 10 5 20 1 [5, 5, 5, 5, 5, 5] = some 0 := by
    decide +kernel
  refine ⟨hvalue, fun h => ?_⟩
  obtain ⟨v, hmem, hv⟩ := h 6 le_rfl
  rw [show [5, 5, 5, 5, 5, 5].take 6 = [(5 : ℚ), 5, 5, 5, 5, 5] from rfl, hvalue] at hv
  cases hv
  rw [Set.mem_uIcc] at hmem
  norm_num at hmem

end TASQuake.Analysis.TurnSearch
