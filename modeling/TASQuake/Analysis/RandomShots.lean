import TASQuake.Analysis.BlockEdits
import TASQuake.Analysis.RandomIntegers
import TASQuake.Model.Mutators

/-!
# Shots at random frames

In every round of `GenerateRandomIntegers` the probe for a free slot stops, and the value is drawn
from a range that is not empty.  `RNGShooter` presses `attack` on each of the integers and releases
it one frame later; with a gap of 36 no press is overwritten.
-/

namespace TASQuake.Analysis.RandomShots

open Lib RandomSlots TASScript FrameBlock List

variable {F : Type}

/-! ## The rounds of the main loop -/

/-- The slot that a round fills. -/
def nextSlot (number : ℕ) (sentinel : Int) (s : RandomSlots) (draws : Draws) : ℕ :=
  findFree s.result sentinel number number ((uniformInt 0 number draws).1.toNat % number)

/-- Nothing goes wrong in a round: the two distributions have a range that is not empty, and the
probe has come to a slot that is free. -/
structure RoundSafe (number : ℕ) (sentinel : Int) (s : RandomSlots) (draws : Draws) : Prop where
  index_range : (0 : Int) ≤ number
  in_range : nextSlot number sentinel s draws < number
  probe_stops : s.result.getD (nextSlot number sentinel s draws) 0 = sentinel
  frame_range : s.mins.getD (nextSlot number sentinel s draws) 0 ≤
    s.maxs.getD (nextSlot number sentinel s draws) 0

/-- The slots and the outcomes left when a round begins. -/
def atRound (number low high minGap : Int) (draws : Draws) (round : ℕ) : RandomSlots × Draws :=
  fill number.toNat (low - 1) minGap round (initial number.toNat low high minGap) draws

variable {number low high minGap : Int} {n free : ℕ} {s : RandomSlots}

theorem roundSafe_of_filling (h : Filling n low high minGap (free + 1) s) (draws : Draws) :
    RoundSafe n (low - 1) s draws := by
  have hmem : low - 1 ∈ s.result := by
    rw [← count_pos_iff, h.count]
    omega
  have hpos : 0 < n := by
    rw [← h.length_result]
    exact length_pos_of_mem hmem
  obtain ⟨hnext, hfree⟩ := findFree_free h.length_result hmem
    (Nat.mod_lt (uniformInt 0 n draws).1.toNat hpos)
  have hlt := h.length_result ▸ hnext
  refine ⟨Int.natCast_nonneg n, hlt, ?_, h.mins_le_maxs _ hlt⟩
  unfold nextSlot
  rw [getD_eq_getElem _ _ hnext, hfree]

theorem filling_rounds {rounds : ℕ} (h : Filling n low high minGap (free + rounds) s)
    (draws : Draws) :
    Filling n low high minGap free (fill n (low - 1) minGap rounds s draws).1 := by
  induction rounds generalizing s draws with
  | zero => exact h
  | succ rounds ih => exact ih (h.fillOne draws) _

theorem roundSafe_atRound (hgap : 0 ≤ minGap) (hfeas : Feasible number low high minGap)
    (draws : Draws) {round : ℕ} (hround : (round : Int) < number) :
    RoundSafe number.toNat (low - 1) (atRound number low high minGap draws round).1
      (atRound number low high minGap draws round).2 := by
  have hcast := Int.toNat_of_nonneg hfeas.pos.le
  obtain ⟨left, hleft⟩ : ∃ left, left + 1 + round = number.toNat :=
    ⟨number.toNat - round - 1, by omega⟩
  have hinit : Filling number.toNat low high minGap (left + 1 + round)
      (initial number.toNat low high minGap) := by
    rw [hleft]
    apply filling_initial hgap
    rw [hcast]
    exact hfeas.room
  exact roundSafe_of_filling (filling_rounds hinit draws) _

theorem generateRandomIntegers_ok (hfeas : Feasible number low high minGap) (draws : Draws) :
    generateRandomIntegers number low high minGap draws =
      .ok ((atRound number low high minGap draws number.toNat).1.result,
        (atRound number low high minGap draws number.toNat).2) :=
  generateRandomIntegers_of_feasible hfeas draws

theorem generateRandomIntegers_error (hnot : ¬ Feasible number low high minGap) (draws : Draws) :
    ∃ message, generateRandomIntegers number low high minGap draws = .error message := by
  cases hres : generateRandomIntegers number low high minGap draws with
  | error message => exact ⟨message, rfl⟩
  | ok answer =>
    obtain ⟨integers, rest⟩ := answer
    exact absurd (feasible_of_generateRandomIntegers hres) hnot

/-! ## The toggles of a row of shots -/

/-- The toggle of a shot. -/
def attack : Str := str "attack"

/-- The toggles placed for shots on the given frames, in the order of the source. -/
def shotToggles (frames : List Int) : List (Int × Bool) :=
  frames.flatMap fun frame => [(frame, true), (frame + 1, false)]

/-- `AddToggle("attack", …)` for every one of them. -/
def placeToggles (script : TASScript F) (toggles : List (Int × Bool)) : TASScript F :=
  toggles.foldl (fun script t => script.addToggle attack t.2 t.1) script

theorem pairwise_shotToggles {gap : Int} (hgap : 2 ≤ gap) {frames : List Int}
    (h : frames.IsChain fun x y => x + gap ≤ y) :
    (shotToggles frames).Pairwise fun t t' => t.1 < t'.1 := by
  have htrans : IsTrans Int fun x y => x + gap ≤ y := ⟨fun a b c hab hbc => by omega⟩
  have hpair := isChain_iff_pairwise.mp h
  unfold shotToggles
  rw [pairwise_flatMap]
  constructor
  · intro frame _
    simp
  · refine hpair.imp fun {x y} hxy => ?_
    intro t ht t' ht'
    simp only [mem_cons, not_mem_nil, or_false] at ht ht'
    rcases ht with rfl | rfl
    · rcases ht' with rfl | rfl
      · show x < y
        omega
      · show x < y + 1
        omega
    · rcases ht' with rfl | rfl
      · show x + 1 < y
        omega
      · show x + 1 < y + 1
        omega

theorem removeTogglesFromRange_twice (script : TASScript F) (name : Str) (low high : Int) :
    (script.removeTogglesFromRange name low high).removeTogglesFromRange name low high =
      script.removeTogglesFromRange name low high := by
  unfold removeTogglesFromRange
  congr 1
  rw [map_map]
  refine map_congr_left fun b _ => ?_
  by_cases hb : inRange low high b = true
  · have hb' : inRange low high { b with toggles := b.toggles.erase name } = true := hb
    simp only [Function.comp_apply, if_pos hb, if_pos hb', OrderedMap.erase_erase_self]
  · simp only [Function.comp_apply, if_neg hb]

theorem rngShooterMutate_eq (script : TASScript F) (lastFrame : Int) (rng : Draws) :
    ∃ frames : List Int,
      (rngShooterMutate script lastFrame rng).1 =
        placeToggles (script.removeTogglesFromRange attack 0 lastFrame) (shotToggles frames) ∧
      (∀ x ∈ frames, 0 ≤ x ∧ x ≤ lastFrame) ∧ frames.IsChain fun x y => x + 36 ≤ y := by
  unfold rngShooterMutate
  dsimp only
  split
  · exact ⟨[], rfl, fun x hx => absurd hx not_mem_nil, .nil⟩
  · next integers rest heq =>
    have hchosen := chosen_generateRandomIntegers (by decide) heq
    refine ⟨integers, ?_, hchosen.mem, hchosen.spaced⟩
    show List.foldl _ ((script.removeTogglesFromRange attack 0 lastFrame).removeTogglesFromRange
      attack 0 lastFrame) integers = _
    rw [removeTogglesFromRange_twice]
    unfold placeToggles shotToggles
    rw [foldl_flatMap]
    rfl

/-! ### What is found in the script -/

theorem toggleAt_addToggle {script : TASScript F}
    (hs : script.blocks.Pairwise fun a b => a.frame < b.frame) (cmd : Str) (state : Bool)
    (frame : Int) :
    ((script.addToggle cmd state frame).blocks.Pairwise fun a b => a.frame < b.frame) ∧
      ∀ g, toggleAt (script.addToggle cmd state frame).blocks g cmd =
        if g = frame then some state else toggleAt script.blocks g cmd := by
  obtain ⟨hins, hat⟩ := blockAt_getBlockForInsertion hs frame
  have hon := (firstOn_getBlockForInsertion script frame).on
  have hblocks : (script.addToggle cmd state frame).blocks = _ :=
    blocks_setToggleAt cmd hins hon state
  rw [hblocks]
  refine ⟨pairwise_map_of_frame hins (by simp), fun g => ?_⟩
  unfold toggleAt
  rw [show blockAt ((script.getBlockForInsertion frame).1.blocks.map
      (setToggleOn (only frame) cmd (some state))) g =
        (blockAt (script.getBlockForInsertion frame).1.blocks g).map
          (setToggleOn (only frame) cmd (some state)) from entryAt_map (by simp) g, hat]
  cases hb : blockAt script.blocks g with
  | some b =>
    have hframe : b.frame = g := ((blockAt_eq_some_iff hs).mp hb).2
    simp [find?_setToggleOn, hframe]
  | none =>
    by_cases hg : g = frame
    · simp [hg, find?_setToggleOn]
    · simp [hg]

theorem toggleAt_placeToggles {toggles : List (Int × Bool)}
    (htoggles : toggles.Pairwise fun t t' => t.1 < t'.1) {script : TASScript F}
    (hs : script.blocks.Pairwise fun a b => a.frame < b.frame) :
    ((placeToggles script toggles).blocks.Pairwise fun a b => a.frame < b.frame) ∧
      (∀ t ∈ toggles, toggleAt (placeToggles script toggles).blocks t.1 attack = some t.2) ∧
      ∀ g, (∀ t ∈ toggles, t.1 ≠ g) →
        toggleAt (placeToggles script toggles).blocks g attack =
          toggleAt script.blocks g attack := by
  induction toggles generalizing script with
  | nil => exact ⟨hs, fun t ht => absurd ht not_mem_nil, fun _ _ => rfl⟩
  | cons t toggles ih =>
    obtain ⟨hlater, hrest⟩ := pairwise_cons.mp htoggles
    obtain ⟨hs', hat⟩ := toggleAt_addToggle hs attack t.2 t.1
    obtain ⟨hstrict, hplaced, hothers⟩ := ih hrest hs'
    refine ⟨hstrict, ?_, ?_⟩
    · intro u hu
      rcases mem_cons.mp hu with rfl | hu
      · -- nothing later goes to the frame of the first toggle
        show toggleAt (placeToggles (script.addToggle attack u.2 u.1) toggles).blocks u.1 attack = _
        rw [hothers u.1 fun v hv => (hlater v hv).ne', hat, if_pos rfl]
      · exact hplaced u hu
    · intro g hg
      show toggleAt (placeToggles (script.addToggle attack t.2 t.1) toggles).blocks g attack = _
      rw [hothers g fun v hv => hg v (mem_cons_of_mem _ hv), hat, if_neg (hg t mem_cons_self).symm]

/-- What `RNGShooter` leaves: toggles on increasing frames, each press with its release on the next
frame, inside the window. -/
structure ShotsApart (script mutated : TASScript F) (lastFrame : Int) (frames : List Int) :
    Prop where
  placed : mutated =
    placeToggles (script.removeTogglesFromRange attack 0 lastFrame) (shotToggles frames)
  inside : ∀ x ∈ frames, 0 ≤ x ∧ x ≤ lastFrame
  increasing : (shotToggles frames).Pairwise fun t t' => t.1 < t'.1
  found : (script.blocks.Pairwise fun a b => a.frame < b.frame) → ∀ x ∈ frames,
    toggleAt mutated.blocks x attack = some true ∧
      toggleAt mutated.blocks (x + 1) attack = some false ∧
      ∀ y, x < y → toggleAt mutated.blocks y attack = some true → x + 1 < y

theorem exists_shotsApart (script : TASScript F) (lastFrame : Int) (rng : Draws) :
    ∃ frames, ShotsApart script (rngShooterMutate script lastFrame rng).1 lastFrame frames := by
  obtain ⟨frames, heq, hmem, hspaced⟩ := rngShooterMutate_eq script lastFrame rng
  have hinc := pairwise_shotToggles (by decide) hspaced
  refine ⟨frames, heq, hmem, hinc, fun hs x hx => ?_⟩
  have hclear : (script.removeTogglesFromRange attack 0 lastFrame).blocks.Pairwise
      fun a b => a.frame < b.frame := by
    rw [blocks_removeTogglesFromRange]
    exact pairwise_map_of_frame hs (by simp)
  obtain ⟨-, hfound, -⟩ := toggleAt_placeToggles hinc hclear
  rw [← heq] at hfound
  have hpress := hfound (x, true) (mem_flatMap.mpr ⟨x, hx, by simp⟩)
  have hrelease := hfound (x + 1, false) (mem_flatMap.mpr ⟨x, hx, by simp⟩)
  refine ⟨hpress, hrelease, fun y hxy hy => ?_⟩
  rcases (show x + 1 ≤ y from hxy).eq_or_lt with rfl | hlt
  · rw [hrelease] at hy
    cases hy
  · exact hlt

/-- **`GenerateRandomIntegers` respects the range and the gap.** If the integers fit, every round of
the loop is safe, and as many integers as asked for are returned, inside the interval, each at least
`minGap` after the one before; if the number is not between 1 and 99 or the integers do not fit, the
answer is the null pointer.  `RNGShooter` places every release before the next press. -/
theorem random_integers_fit_and_shots_apart (number low high minGap : Int) (draws : Draws)
    (script : TASScript F) (lastFrame : Int) :
    (0 ≤ minGap → 1 ≤ number → number ≤ 99 → 0 ≤ (high - low) - (number - 1) * minGap →
      (∀ round : ℕ, (round : Int) < number →
        RoundSafe number.toNat (low - 1) (atRound number low high minGap draws round).1
          (atRound number low high minGap draws round).2) ∧
      ∃ integers rest, generateRandomIntegers number low high minGap draws = .ok (integers, rest) ∧
        (integers.length : Int) = number ∧ (∀ x ∈ integers, low ≤ x ∧ x ≤ high) ∧
        ∀ (i : ℕ) (hi : i + 1 < integers.length), minGap ≤ integers[i + 1] - integers[i]) ∧
    (¬ (1 ≤ number ∧ number ≤ 99) ∨ (high - low) - (number - 1) * minGap < 0 →
      ∃ message, generateRandomIntegers number low high minGap draws = .error message) ∧
    ∃ frames, ShotsApart script (rngShooterMutate script lastFrame draws).1 lastFrame frames := by
  refine ⟨?_, ?_, exists_shotsApart script lastFrame draws⟩
  · intro hgap hone hmax hroom
    have hfeas : Feasible number low high minGap := ⟨by omega, hroom, hmax⟩
    refine ⟨fun round hround => roundSafe_atRound hgap hfeas draws hround, ?_⟩
    have hok := generateRandomIntegers_ok hfeas draws
    have hchosen := chosen_generateRandomIntegers hgap hok
    refine ⟨_, _, hok, hchosen.length, hchosen.mem, fun i hi => ?_⟩
    have hspaced := isChain_iff_getElem.mp hchosen.spaced i hi
    omega
  · intro hbad
    apply generateRandomIntegers_error
    intro hfeas
    have hmax : number ≤ 99 := hfeas.le_max
    have hpos := hfeas.pos
    have hroom := hfeas.room
    omega

/-- Three integers in 0..100 with a gap of 36, for some outcomes. -/
theorem random_integers_fit_and_shots_apart_three :
    (generateRandomIntegers 3 0 100 36 [1, 5, 2, 7, 0, 3]).toOption.map Prod.fst =
        some [3, 41, 84] ∧
      ∃ integers rest, generateRandomIntegers 3 0 100 36 [1, 5, 2, 7, 0, 3] =
          .ok (integers, rest) ∧ (integers.length : Int) = 3 := by
  refine ⟨by decide, ?_⟩
  obtain ⟨-, integers, rest, hok, hlen, -⟩ := (random_integers_fit_and_shots_apart 3 0 100 36
    [1, 5, 2, 7, 0, 3] ({ blocks := [] } : TASScript Int) 100).1 (by decide) (by decide) (by decide)
    (by decide)
  exact ⟨integers, rest, hok, hlen⟩

end TASQuake.Analysis.RandomShots
