import TASQuake.Analysis.StrafeWindow

/-!
# The yaws that `StrafeAdjuster` tries

`StrafeBounds` gives the smallest changes of a yaw to either side that make a difference, or ±999
for a side without one (`boundsOf_foldl`).  `StrafeAdjuster` starts at one of them and doubles its
step. If only one side has a bound, it starts at the other one, 999 degrees away; besides, a bound
has 0.01 added to it and may exceed half a turn.  Floats are exact rationals here.
-/

namespace TASQuake.Analysis.StrafeSearch

open Lib StrafeWindow RollingStone OrderedMap BlockRoller List

variable {distance : Vec ℚ → Vec ℚ → ℚ}

/-! ## The bounds of a yaw -/

/-- The angle from the velocity to the yaw, in radians. -/
def yawDiff (distance : Vec ℚ → Vec ℚ → ℚ) (yaw : ℚ) (data : FrameData ℚ) : ℚ :=
  (rationalArith distance).normalizeRad
    (yaw * ((rationalArith distance).pi / 180) - data.velTheta)

/-- The change of the yaw that makes a difference in a frame, in degrees. -/
def increment (distance : Vec ℚ → Vec ℚ → ℚ) (yaw : ℚ) (data : FrameData ℚ) : ℚ :=
  |yawDiff distance yaw data * (180 / (rationalArith distance).pi)| + 1 / 100

/-- The frame bounds the yaw from below. -/
def BoundsBelow (distance : Vec ℚ → Vec ℚ → ℚ) (yaw : ℚ) (data : FrameData ℚ) : Prop :=
  data.velTheta ≠ 999 ∧ 0 ≤ yawDiff distance yaw data

/-- The frame bounds the yaw from above. -/
def BoundsAbove (distance : Vec ℚ → Vec ℚ → ℚ) (yaw : ℚ) (data : FrameData ℚ) : Prop :=
  data.velTheta ≠ 999 ∧ yawDiff distance yaw data < 0

theorem increment_mem (distance : Vec ℚ → Vec ℚ → ℚ) (yaw : ℚ) (data : FrameData ℚ) :
    1 / 100 ≤ increment distance yaw data ∧ increment distance yaw data ≤ 180 + 1 / 100 := by
  have hpi := rationalArith_pi_pos distance
  have hle : |yawDiff distance yaw data| ≤ (rationalArith distance).pi :=
    abs_normalizeRad_le distance _
  have hdeg : |yawDiff distance yaw data * (180 / (rationalArith distance).pi)| ≤ 180 := by
    rw [abs_mul, abs_of_pos (div_pos (by norm_num) hpi)]
    calc |yawDiff distance yaw data| * (180 / (rationalArith distance).pi)
        ≤ (rationalArith distance).pi * (180 / (rationalArith distance).pi) :=
          mul_le_mul_of_nonneg_right hle (div_pos (by norm_num) hpi).le
      _ = 180 := mul_div_cancel₀ _ hpi.ne'
  have hnonneg := abs_nonneg (yawDiff distance yaw data * (180 / (rationalArith distance).pi))
  unfold increment
  constructor <;> linarith

/-- The values of the frames with a property. -/
def valuesOf (p : FrameData ℚ → Prop) (f : FrameData ℚ → ℚ) (frames : List (FrameData ℚ)) : Set ℚ :=
  {x | ∃ data ∈ frames, p data ∧ x = f data}

section ValuesOf

variable {p : FrameData ℚ → Prop} {f : FrameData ℚ → ℚ} {frames : List (FrameData ℚ)}
  {data : FrameData ℚ}

theorem valuesOf_concat (h : p data) :
    valuesOf p f (frames ++ [data]) = insert (f data) (valuesOf p f frames) := by
  ext x
  constructor
  · rintro ⟨d, hd, hp, rfl⟩
    rcases mem_append.mp hd with hd | hd
    · exact .inr ⟨d, hd, hp, rfl⟩
    · rw [mem_singleton.mp hd]
      exact .inl rfl
  · rintro (rfl | ⟨d, hd, hp, rfl⟩)
    · exact ⟨data, mem_append_right _ (mem_singleton_self _), h, rfl⟩
    · exact ⟨d, mem_append_left _ hd, hp, rfl⟩

theorem valuesOf_concat_of_not (h : ¬ p data) :
    valuesOf p f (frames ++ [data]) = valuesOf p f frames := by
  ext x
  constructor
  · rintro ⟨d, hd, hp, rfl⟩
    rcases mem_append.mp hd with hd | hd
    · exact ⟨d, hd, hp, rfl⟩
    · rw [mem_singleton.mp hd] at hp
      exact absurd hp h
  · rintro ⟨d, hd, hp, rfl⟩
    exact ⟨d, mem_append_left _ hd, hp, rfl⟩

end ValuesOf

/-- What the bounds are after some frames. -/
structure BoundsOf (distance : Vec ℚ → Vec ℚ → ℚ) (yaw : ℚ) (frames : List (FrameData ℚ))
    (bounds : ℚ × ℚ) : Prop where
  below : IsGreatest (insert (-999)
    (valuesOf (BoundsBelow distance yaw) (fun data => -increment distance yaw data) frames)) bounds.1
  above : IsLeast (insert 999
    (valuesOf (BoundsAbove distance yaw) (increment distance yaw) frames)) bounds.2

theorem findSmallest_eq (yaw : ℚ) (data : FrameData ℚ) (bounds : ℚ × ℚ) :
    data.findSmallestStrafeYawIncrements (rationalArith distance) yaw bounds =
      if data.velTheta = 999 then bounds
      else if 0 ≤ yawDiff distance yaw data then
        (max bounds.1 (-increment distance yaw data), bounds.2)
      else (bounds.1, min bounds.2 (increment distance yaw data)) := by
  have hcast : (rationalArith distance).ofInt 999 = 999 := Int.cast_ofNat 999
  have hzero : (rationalArith distance).ofInt 0 = 0 := Int.cast_zero
  unfold FrameData.findSmallestStrafeYawIncrements
  rw [hcast, hzero]
  have hdiff : (rationalArith distance).normalizeRad ((rationalArith distance).sub
      ((rationalArith distance).mul ((rationalArith distance).ofFloat yaw)
        ((rationalArith distance).div (rationalArith distance).pi
          ((rationalArith distance).ofInt 180))) data.velTheta) = yawDiff distance yaw data := by
    unfold yawDiff
    simp
  have hinc : (rationalArith distance).toFloat ((rationalArith distance).add
      ((rationalArith distance).abs ((rationalArith distance).mul (yawDiff distance yaw data)
        ((rationalArith distance).div ((rationalArith distance).ofInt 180)
          (rationalArith distance).pi)))
      ((rationalArith distance).ofFloat ((rationalArith distance).toFloat
        ((rationalArith distance).frac 1 100)))) = increment distance yaw data := by
    unfold increment
    simp
  dsimp only
  rw [hdiff, hinc]
  split
  · rfl
  · split
    · have hmax : max bounds.1 (-increment distance yaw data) =
          if bounds.1 < -increment distance yaw data then -increment distance yaw data
          else bounds.1 := by
        split
        · next hlt => exact max_eq_right hlt.le
        · next hle => exact max_eq_left (not_lt.mp hle)
      rw [hmax]
      rfl
    · have hmin : min bounds.2 (increment distance yaw data) =
          if increment distance yaw data < bounds.2 then increment distance yaw data
          else bounds.2 := by
        split
        · next hlt => exact min_eq_right hlt.le
        · next hle => exact min_eq_left (not_lt.mp hle)
      rw [hmin]
      rfl

variable {yaw : ℚ}

theorem BoundsOf.concat {frames : List (FrameData ℚ)} {bounds : ℚ × ℚ}
    (h : BoundsOf distance yaw frames bounds) (data : FrameData ℚ) :
    BoundsOf distance yaw (frames ++ [data])
      (data.findSmallestStrafeYawIncrements (rationalArith distance) yaw bounds) := by
  rw [findSmallest_eq]
  by_cases hvel : data.velTheta = 999
  · rw [if_pos hvel]
    refine ⟨?_, ?_⟩
    · rw [valuesOf_concat_of_not fun hb => hb.1 hvel]
      exact h.below
    · rw [valuesOf_concat_of_not fun hb => hb.1 hvel]
      exact h.above
  · rw [if_neg hvel]
    by_cases hdiff : 0 ≤ yawDiff distance yaw data
    · rw [if_pos hdiff]
      refine ⟨?_, ?_⟩
      · rw [valuesOf_concat ⟨hvel, hdiff⟩, Set.insert_comm, max_comm]
        exact h.below.insert _
      · rw [valuesOf_concat_of_not fun hb => absurd hb.2 (not_lt.mpr hdiff)]
        exact h.above
    · rw [if_neg hdiff]
      refine ⟨?_, ?_⟩
      · rw [valuesOf_concat_of_not fun hb => absurd hb.2 hdiff]
        exact h.below
      · rw [valuesOf_concat ⟨hvel, not_le.mp hdiff⟩, Set.insert_comm, min_comm]
        exact h.above.insert _

theorem boundsOf_foldl (distance : Vec ℚ → Vec ℚ → ℚ) (yaw : ℚ) (frames : List (FrameData ℚ)) :
    BoundsOf distance yaw frames (frames.foldl
      (fun bounds data =>
        data.findSmallestStrafeYawIncrements (rationalArith distance) yaw bounds) (-999, 999)) := by
  induction frames using reverseRecOn with
  | nil =>
    have hnil : ∀ p f, valuesOf p f [] = ∅ := by
      intro p f
      ext x
      constructor
      · rintro ⟨d, hd, -⟩
        cases hd
      · exact False.elim
    refine ⟨?_, ?_⟩
    · rw [hnil, insert_empty_eq]
      exact isGreatest_singleton
    · rw [hnil, insert_empty_eq]
      exact isLeast_singleton
  | append_singleton frames data ih =>
    rw [foldl_append]
    exact ih.concat data

section Finite

variable {yaw : ℚ} {frames : List (FrameData ℚ)} {bounds : ℚ × ℚ}

section

variable (h : BoundsOf distance yaw frames bounds)
include h

/-- The lower bound is not less than -180 exactly if some frame has its change within half a turn. -/
theorem BoundsOf.below_iff :
    -180 ≤ bounds.1 ↔
      ∃ data ∈ frames, BoundsBelow distance yaw data ∧ increment distance yaw data ≤ 180 := by
  constructor
  · intro hle
    rcases h.below.1 with heq | ⟨data, hdata, hbelow, heq⟩
    · rw [heq] at hle
      norm_num at hle
    · rw [heq] at hle
      exact ⟨data, hdata, hbelow, by linarith⟩
  · rintro ⟨data, hdata, hbelow, hle⟩
    have hmem := h.below.2 (.inr ⟨data, hdata, hbelow, rfl⟩)
    linarith

theorem BoundsOf.above_iff :
    bounds.2 ≤ 180 ↔
      ∃ data ∈ frames, BoundsAbove distance yaw data ∧ increment distance yaw data ≤ 180 := by
  constructor
  · intro hle
    rcases h.above.1 with heq | ⟨data, hdata, habove, heq⟩
    · rw [heq] at hle
      norm_num at hle
    · rw [heq] at hle
      exact ⟨data, hdata, habove, hle⟩
  · rintro ⟨data, hdata, habove, hle⟩
    have hmem := h.above.2 (.inr ⟨data, hdata, habove, rfl⟩)
    linarith

theorem BoundsOf.below_neg : bounds.1 < 0 := by
  rcases h.below.1 with heq | ⟨data, -, -, heq⟩
  · rw [heq]
    norm_num
  · have hinc := (increment_mem distance yaw data).1
    rw [heq]
    linarith

theorem BoundsOf.above_pos : 0 < bounds.2 := by
  rcases h.above.1 with heq | ⟨data, -, -, heq⟩
  · rw [heq]
    norm_num
  · have hinc := (increment_mem distance yaw data).1
    rw [heq]
    linarith

end

end Finite

/-! ## Rolling on -/

/-- A run of the game: the frames recorded in it and its efficacy. -/
structure Measured where
  vecData : List (FrameData ℚ)
  efficacy : ℚ

/-- The yaws that `StrafeAdjuster` tries, before they are normalised: `Mutate` is called after a
run, and again for as long as `ReportResult` wants to continue.  `none` if a call does not return.
-/
def triedYaws (distance : Vec ℚ → Vec ℚ → ℚ) (beyond : ℕ → FrameData ℚ) :
    BlockRoller ℚ → TASScript ℚ → Draws → List Measured → Option (List ℚ)
  | _, _, _, [] => some []
  | self, script, rng, run :: runs =>
    match strafeAdjusterMutate (rationalArith distance) beyond self script run.vecData run.efficacy
        rng with
    | none => none
    | some (self, script, rng) =>
      if self.currentBlockIndex.isNone then some []
      else
        match runs with
        | [] => some [self.stone.currentValue]
        | next :: _ =>
          let reported := self.reportResult (rationalArith distance) next.efficacy
          if reported.currentBlockIndex.isNone then some [self.stone.currentValue]
          else (triedYaws distance beyond reported script rng runs).map
            fun yaws => self.stone.currentValue :: yaws

/-- Rolling a stone on: what each step keeps holds for every value tried, and the values stand in the
relation that a step establishes. -/
theorem triedYaws_spec {I : RollingStone ℚ → Prop} {r : ℚ → ℚ → Prop}
    (htrans : ∀ a b c, r a b → r b c → r a c)
    (hstep : ∀ stone efficacy, I stone → stone.shouldContinue efficacy = true →
      I (stone.nextValue (rationalArith distance)) ∧
        r stone.currentValue (stone.nextValue (rationalArith distance)).currentValue)
    (beyond : ℕ → FrameData ℚ) (run : Measured) (runs : List Measured) {stone : RollingStone ℚ}
    {i : ℕ} {script : TASScript ℚ} (hi : i < script.blocks.length) (rng : Draws) (hI : I stone) :
    ∃ yaws, triedYaws distance beyond ⟨some i, stone⟩ script rng (run :: runs) =
        some (stone.currentValue :: yaws) ∧
      (∀ v ∈ stone.currentValue :: yaws, ∃ st, I st ∧ st.currentValue = v) ∧
      (stone.currentValue :: yaws).Pairwise r := by
  induction runs generalizing run stone script rng with
  | nil =>
    obtain ⟨t, ht, -⟩ := MutationOrder.writeStrafeYaw_spec (rationalArith distance) script hi
      ((rationalArith distance).normalizeDeg stone.currentValue)
    refine ⟨[], ?_, forall_mem_singleton.mpr ⟨stone, hI, rfl⟩, pairwise_singleton r _⟩
    simp [triedYaws, strafeAdjusterMutate, writeStone, ht]
  | cons next runs ih =>
    obtain ⟨t, ht, hpres⟩ := MutationOrder.writeStrafeYaw_spec (rationalArith distance) script hi
      ((rationalArith distance).normalizeDeg stone.currentValue)
    cases hcont : stone.shouldContinue next.efficacy with
    | false =>
      refine ⟨[], ?_, forall_mem_singleton.mpr ⟨stone, hI, rfl⟩, pairwise_singleton r _⟩
      rw [triedYaws]
      simp [strafeAdjusterMutate, writeStone, ht, reportResult, hcont]
    | true =>
      obtain ⟨hI', hrel⟩ := hstep stone next.efficacy hI hcont
      obtain ⟨yaws, hyaws, hmem, hpair⟩ := ih next (hi.trans_le hpres.length_le) rng hI'
      refine ⟨(stone.nextValue (rationalArith distance)).currentValue :: yaws, ?_, ?_, ?_⟩
      · rw [triedYaws]
        simp only [strafeAdjusterMutate, writeStone, ht, reportResult, hcont,
          some_bind, Option.isNone_some, Bool.false_eq_true, if_false,
          if_true, hyaws, Option.map_some]
      · intro v hv
        rcases mem_cons.mp hv with rfl | hv
        · exact ⟨stone, hI, rfl⟩
        · exact hmem v hv
      · refine pairwise_cons.mpr ⟨fun v hv => ?_, hpair⟩
        rcases mem_cons.mp hv with rfl | hv
        · exact hrel
        · exact htrans _ _ _ hrel ((pairwise_cons.mp hpair).1 v hv)

theorem currentValue_ne_of_shouldContinue {stone : RollingStone ℚ} {efficacy : ℚ}
    (h : stone.shouldContinue efficacy = true) : stone.currentValue ≠ stone.max := by
  unfold shouldContinue at h
  split at h
  · cases h
  · split at h
    · cases h
    · next hne => exact hne

/-- A stone on its way up from a yaw, by half a turn at most. -/
structure RollsUp (yaw : ℚ) (stone : RollingStone ℚ) : Prop where
  max_eq : stone.max = yaw + 180
  delta_pos : 0 < stone.prevDelta
  above : yaw < stone.currentValue
  le_max : stone.currentValue ≤ stone.max

/-- A stone on its way down. -/
structure RollsDown (yaw : ℚ) (stone : RollingStone ℚ) : Prop where
  max_eq : stone.max = yaw - 180
  delta_neg : stone.prevDelta < 0
  below : stone.currentValue < yaw
  max_le : stone.max ≤ stone.currentValue

section Rolls

variable {yaw efficacy : ℚ} {stone : RollingStone ℚ}

theorem nextValue_prevDelta (stone : RollingStone ℚ) :
    (stone.nextValue (rationalArith distance)).prevDelta = stone.prevDelta * 2 := by
  unfold nextValue
  simp

theorem RollsUp.next (h : RollsUp yaw stone) (hcont : stone.shouldContinue efficacy = true) :
    RollsUp yaw (stone.nextValue (rationalArith distance)) ∧
      stone.currentValue < (stone.nextValue (rationalArith distance)).currentValue := by
  have hne := currentValue_ne_of_shouldContinue hcont
  have hlt := lt_of_le_of_ne h.le_max hne
  have hdelta := h.delta_pos
  have habove := h.above
  have hvalue : (stone.nextValue (rationalArith distance)).currentValue =
      min (stone.currentValue + stone.prevDelta * 2) stone.max := by
    have hpos : ¬ stone.prevDelta * 2 < 0 := by linarith
    unfold nextValue
    simp [hpos]
  have hnext : stone.currentValue < (stone.nextValue (rationalArith distance)).currentValue := by
    rw [hvalue]
    exact lt_min (by linarith) hlt
  refine ⟨⟨h.max_eq, ?_, habove.trans hnext, ?_⟩, hnext⟩
  · rw [nextValue_prevDelta]
    linarith
  · rw [hvalue]
    exact min_le_right _ _

theorem RollsDown.next (h : RollsDown yaw stone) (hcont : stone.shouldContinue efficacy = true) :
    RollsDown yaw (stone.nextValue (rationalArith distance)) ∧
      (stone.nextValue (rationalArith distance)).currentValue < stone.currentValue := by
  have hne := currentValue_ne_of_shouldContinue hcont
  have hlt := lt_of_le_of_ne h.max_le hne.symm
  have hdelta := h.delta_neg
  have hbelow := h.below
  have hvalue : (stone.nextValue (rationalArith distance)).currentValue =
      max (stone.currentValue + stone.prevDelta * 2) stone.max := by
    have hneg : stone.prevDelta * 2 < 0 := by linarith
    unfold nextValue
    simp [hneg]
  have hnext : (stone.nextValue (rationalArith distance)).currentValue < stone.currentValue := by
    rw [hvalue]
    exact max_lt (by linarith) hlt
  refine ⟨⟨h.max_eq, ?_, hnext.trans hbelow, ?_⟩, hnext⟩
  · rw [nextValue_prevDelta]
    linarith
  · rw [hvalue]
    exact le_max_right _ _

end Rolls

/-! ## From the bounds to the yaws -/

/-- The yaws move away from a yaw, to one side. -/
def MovesAway (yaw : ℚ) (yaws : List ℚ) : Prop :=
  yaws.Pairwise (· < ·) ∧ (∀ v ∈ yaws, yaw < v) ∨ yaws.Pairwise (· > ·) ∧ ∀ v ∈ yaws, v < yaw

/-- The first yaw is at a finite bound, and all are within half a turn and move away. -/
structure Explores (yaw : ℚ) (bounds : ℚ × ℚ) (yaws : List ℚ) : Prop where
  first : yaws.head? = some (yaw + bounds.1) ∧ bounds.1 ≠ -999 ∨
    yaws.head? = some (yaw + bounds.2) ∧ bounds.2 ≠ 999
  near : ∀ v ∈ yaws, |v - yaw| ≤ 180
  away : MovesAway yaw yaws

section Explores

variable {yaw efficacy : ℚ} {bounds : ℚ × ℚ} {i : ℕ} {script : TASScript ℚ}

theorem explores_up (beyond : ℕ → FrameData ℚ) (run : Measured) (runs : List Measured)
    (hi : i < script.blocks.length) (rng : Draws) {stone : RollingStone ℚ}
    (hstone : RollsUp yaw stone) (hvalue : stone.currentValue = yaw + bounds.2)
    (hfinite : bounds.2 ≠ 999) :
    ∃ yaws, triedYaws distance beyond ⟨some i, stone⟩ script rng (run :: runs) = some yaws ∧
      Explores yaw bounds yaws := by
  obtain ⟨yaws, heq, hmem, hpair⟩ := triedYaws_spec (I := RollsUp yaw) (r := (· < ·))
    (fun _ _ _ => lt_trans) (fun _ _ h hcont => h.next hcont) beyond run runs hi rng hstone
  refine ⟨_, heq, .inr ⟨congrArg some hvalue, hfinite⟩, fun v hv => ?_, .inl ⟨hpair, fun v hv => ?_⟩⟩
  · obtain ⟨st, hst, rfl⟩ := hmem v hv
    have hle := hst.le_max
    have habove := hst.above
    rw [hst.max_eq] at hle
    rw [abs_le]
    constructor <;> linarith
  · obtain ⟨st, hst, rfl⟩ := hmem v hv
    exact hst.above

theorem explores_down (beyond : ℕ → FrameData ℚ) (run : Measured) (runs : List Measured)
    (hi : i < script.blocks.length) (rng : Draws) {stone : RollingStone ℚ}
    (hstone : RollsDown yaw stone) (hvalue : stone.currentValue = yaw + bounds.1)
    (hfinite : bounds.1 ≠ -999) :
    ∃ yaws, triedYaws distance beyond ⟨some i, stone⟩ script rng (run :: runs) = some yaws ∧
      Explores yaw bounds yaws := by
  obtain ⟨yaws, heq, hmem, hpair⟩ := triedYaws_spec (I := RollsDown yaw) (r := (· > ·))
    (fun _ _ _ hab hbc => lt_trans hbc hab) (fun _ _ h hcont => h.next hcont) beyond run runs hi rng
    hstone
  refine ⟨_, heq, .inl ⟨congrArg some hvalue, hfinite⟩, fun v hv => ?_, .inr ⟨hpair, fun v hv => ?_⟩⟩
  · obtain ⟨st, hst, rfl⟩ := hmem v hv
    have hle := hst.max_le
    have hbelow := hst.below
    rw [hst.max_eq] at hle
    rw [abs_le]
    constructor <;> linarith
  · obtain ⟨st, hst, rfl⟩ := hmem v hv
    exact hst.below

end Explores

/-! ## The stone that is rolled first -/

/-- The stone for the way up. -/
def stoneUp (efficacy yaw bound : ℚ) : RollingStone ℚ :=
  { prevEfficacy := efficacy, currentValue := yaw + bound, prevDelta := bound, max := yaw + 180 }

/-- The stone for the way down. -/
def stoneDown (efficacy yaw bound : ℚ) : RollingStone ℚ :=
  { prevEfficacy := efficacy, currentValue := yaw + bound, prevDelta := bound, max := yaw - 180 }

theorem strafeStone_eq (distance : Vec ℚ → Vec ℚ → ℚ) (efficacy yaw min max : ℚ) (rng : Draws) :
    strafeStone (rationalArith distance) efficacy yaw min max rng =
      if min = -999 then
        if max = 999 then (none, rng) else (some (stoneDown efficacy yaw min), rng)
      else if max = 999 then (some (stoneUp efficacy yaw max), rng)
      else
        let (up, rng) := (rationalArith distance).randomAbove
          ((rationalArith distance).frac 1 2) rng
        (some (if up then stoneUp efficacy yaw max else stoneDown efficacy yaw min), rng) := by
  unfold strafeStone negFloat invalidAngle
  simp only [rationalArith_ofFloat, rationalArith_toFloat, rationalArith_neg, rationalArith_ofInt,
    rationalArith_add, rationalArith_sub, Int.cast_ofNat]
  by_cases hmin : min = -999
  · by_cases hmax : max = 999
    · simp [hmin, hmax]
    · simp [hmin, hmax, stoneDown]
  · by_cases hmax : max = 999
    · simp [hmin, hmax, stoneUp]
    · simp only [hmin, hmax, decide_false, Bool.false_and, Bool.false_eq_true, if_false]
      generalize (rationalArith distance).randomAbove ((rationalArith distance).frac 1 2) rng = coin
      obtain ⟨up, rng'⟩ := coin
      cases up
      · rfl
      · rfl

variable {block : FrameBlock ℚ}

theorem readStrafeYaw_eq {ops : MutatorArith ℚ ℚ} {script : TASScript ℚ} {i : ℕ}
    (hblock : script.blocks[i]? = some block) (hyaw : block.convars.find? strafeYaw = some yaw) :
    readStrafeYaw ops script i = some (yaw, script) := by
  have htouch : block.convars.touch strafeYaw (ops.toFloat (ops.ofInt 0)) = block.convars := by
    unfold touch OrderedMap.contains
    rw [hyaw]
    rfl
  have hscript : script.modifyBlock i (fun b =>
      { b with convars := b.convars.touch strafeYaw (ops.toFloat (ops.ofInt 0)) }) = script := by
    unfold TASScript.modifyBlock
    congr 1
    apply ext_getElem?
    intro j
    rw [getElem?_modify]
    by_cases hij : i = j
    · subst hij
      rw [hblock]
      simp [htouch]
    · simp [hij]
  unfold readStrafeYaw
  simp only [hblock, Option.map_some, hyaw, Option.getD_some, hscript]

section Start

variable {beyond : ℕ → FrameData ℚ} {self : BlockRoller ℚ} {script : TASScript ℚ} {run : Measured}
  {i : ℕ} {block : FrameBlock ℚ} {yaw : ℚ} {rng rng' rng'' : Draws}

theorem triedYaws_idle (hself : self.currentBlockIndex = none)
    (hblock : script.blocks[i]? = some block) (hyaw : block.convars.find? strafeYaw = some yaw)
    (hfind : findSuitableBlock (rationalArith distance) hasStrafeYaw script rng =
      some (some i, rng')) {bounds : ℚ × ℚ}
    (hbounds : strafeBounds (rationalArith distance) beyond script run.vecData i block = bounds)
    {stone : RollingStone ℚ}
    (hstone : strafeStone (rationalArith distance) run.efficacy yaw bounds.1 bounds.2 rng' =
      (some stone, rng'')) (runs : List Measured) :
    triedYaws distance beyond self script rng (run :: runs) =
      triedYaws distance beyond ⟨some i, stone⟩ script rng'' (run :: runs) := by
  have hmutate : strafeAdjusterMutate (rationalArith distance) beyond self script run.vecData
      run.efficacy rng = strafeAdjusterMutate (rationalArith distance) beyond ⟨some i, stone⟩ script
        run.vecData run.efficacy rng'' := by
    unfold strafeAdjusterMutate
    rw [hself]
    simp only [hfind, readStrafeYaw_eq hblock hyaw, hblock, hbounds, hstone, some_bind]
  cases runs with
  | nil => rw [triedYaws, triedYaws, hmutate]
  | cons next runs => rw [triedYaws, triedYaws, hmutate]

theorem exists_triedYaws (distance : Vec ℚ → Vec ℚ → ℚ) (beyond : ℕ → FrameData ℚ)
    (hi : i < script.blocks.length) (stone : RollingStone ℚ) (rng : Draws) (run : Measured)
    (runs : List Measured) :
    ∃ yaws, triedYaws distance beyond ⟨some i, stone⟩ script rng (run :: runs) =
      some (stone.currentValue :: yaws) := by
  obtain ⟨yaws, heq, -⟩ := triedYaws_spec (I := fun _ => True) (r := fun _ _ => True)
    (fun _ _ _ _ _ => trivial) (fun _ _ _ _ => ⟨trivial, trivial⟩) beyond run runs hi rng trivial
  exact ⟨yaws, heq⟩

theorem findSuitableBlock_direct (ops : MutatorArith ℚ ℚ) {p : TASScript ℚ → ℕ → Bool}
    (hi : i < script.blocks.length) (hp : p script i = true) (rng : Draws) :
    findSuitableBlock ops p script (i :: rng) = some (some i, rng) := by
  have hindex : (draw (i :: rng)).1 % script.blocks.length = i := Nat.mod_eq_of_lt hi
  unfold findSuitableBlock
  dsimp only
  rw [hindex, if_neg (by omega), if_pos hp]
  rfl

end Start

/-! ## The search as a whole -/

/-- The data of the frames looked at. -/
def examinedData (beyond : ℕ → FrameData ℚ) (script : TASScript ℚ) (vecData : List (FrameData ℚ))
    (i : ℕ) (block : FrameBlock ℚ) : List (FrameData ℚ) :=
  (strafeFrames script vecData.length i block.frame).map fun j => vecData.getD j (beyond j)

theorem boundsOf_strafeBounds (beyond : ℕ → FrameData ℚ) (script : TASScript ℚ)
    (vecData : List (FrameData ℚ)) (i : ℕ) (hyaw : block.convars.find? strafeYaw = some yaw)
    (hdir : ¬ StrafesDirection (rationalArith distance) block) :
    BoundsOf distance yaw (examinedData beyond script vecData i block)
      (strafeBounds (rationalArith distance) beyond script vecData i block) := by
  have hstart : (negFloat (rationalArith distance) (invalidAngle (rationalArith distance)),
      invalidAngle (rationalArith distance)) = ((-999 : ℚ), (999 : ℚ)) := by
    simp [negFloat, invalidAngle]
  rw [strafeBounds_of_frames _ _ _ _ hyaw hdir, hstart]
  have hfold := boundsOf_foldl distance yaw (examinedData beyond script vecData i block)
  unfold examinedData at hfold ⊢
  rwa [foldl_map] at hfold

theorem strafeBounds_direction (beyond : ℕ → FrameData ℚ) (script : TASScript ℚ)
    (vecData : List (FrameData ℚ)) (i : ℕ) (hyaw : block.convars.find? strafeYaw = some yaw)
    (hdir : StrafesDirection (rationalArith distance) block) :
    strafeBounds (rationalArith distance) beyond script vecData i block = (-1 / 100, 1 / 100) := by
  rw [strafeBounds_of_direction _ _ _ _ hyaw hdir]
  simp

section Whole

variable {beyond : ℕ → FrameData ℚ} {self : BlockRoller ℚ} {script : TASScript ℚ} {run : Measured}
  {i : ℕ} {block : FrameBlock ℚ} {yaw : ℚ}

theorem explores_of_bounds (hself : self.currentBlockIndex = none)
    (hblock : script.blocks[i]? = some block) (hyaw : block.convars.find? strafeYaw = some yaw)
    {bounds : ℚ × ℚ}
    (hbounds : strafeBounds (rationalArith distance) beyond script run.vecData i block = bounds)
    (hneg : bounds.1 < 0) (hlow : -180 ≤ bounds.1) (hpos : 0 < bounds.2) (hhigh : bounds.2 ≤ 180)
    {rng rng' : Draws} (hfind : findSuitableBlock (rationalArith distance) hasStrafeYaw script rng =
      some (some i, rng')) (runs : List Measured) :
    ∃ yaws, triedYaws distance beyond self script rng (run :: runs) = some yaws ∧
      Explores yaw bounds yaws := by
  have hmin : bounds.1 ≠ -999 := by
    intro h
    rw [h] at hlow
    norm_num at hlow
  have hmax : bounds.2 ≠ 999 := by
    intro h
    rw [h] at hhigh
    norm_num at hhigh
  obtain ⟨hi, -⟩ := List.getElem?_eq_some_iff.mp hblock
  have hstone := strafeStone_eq distance run.efficacy yaw bounds.1 bounds.2 rng'
  rw [if_neg hmin, if_neg hmax] at hstone
  generalize (rationalArith distance).randomAbove ((rationalArith distance).frac 1 2) rng' = coin
    at hstone
  obtain ⟨up, rng''⟩ := coin
  rw [triedYaws_idle hself hblock hyaw hfind hbounds hstone runs]
  cases up with
  | true =>
    refine explores_up beyond run runs hi rng'' ⟨rfl, hpos, ?_, ?_⟩ rfl hmax
    · exact lt_add_of_pos_right yaw hpos
    · exact add_le_add_right hhigh yaw
  | false =>
    refine explores_down beyond run runs hi rng'' ⟨rfl, hneg, ?_, ?_⟩ rfl hmin
    · exact add_lt_of_neg_right yaw hneg
    · show yaw - 180 ≤ yaw + bounds.1
      linarith

theorem bounds_of_explores (hself : self.currentBlockIndex = none)
    (hblock : script.blocks[i]? = some block) (hyaw : block.convars.find? strafeYaw = some yaw)
    {bounds : ℚ × ℚ}
    (hbounds : strafeBounds (rationalArith distance) beyond script run.vecData i block = bounds)
    (hfinite : bounds.1 ≠ -999 ∨ bounds.2 ≠ 999)
    (h : ∀ rng rng', findSuitableBlock (rationalArith distance) hasStrafeYaw script rng =
        some (some i, rng') →
      ∃ yaws, triedYaws distance beyond self script rng [run] = some yaws ∧
        ∀ v ∈ yaws, |v - yaw| ≤ 180) :
    -180 ≤ bounds.1 ∧ bounds.2 ≤ 180 := by
  obtain ⟨hi, -⟩ := List.getElem?_eq_some_iff.mp hblock
  have hpred : hasStrafeYaw script i = true := by
    unfold hasStrafeYaw
    rw [hblock]
    simp [FrameBlock.hasConvar, OrderedMap.contains, hyaw]
  -- the first yaw that the outcome `r` of the coin leads to
  have hfirst : ∀ r stone rng', strafeStone (rationalArith distance) run.efficacy yaw bounds.1
      bounds.2 [r] = (some stone, rng') → |stone.currentValue - yaw| ≤ 180 := by
    intro r stone rng' hstone
    have hfind := findSuitableBlock_direct (rationalArith distance) hi hpred [r]
    obtain ⟨yaws, hyaws, hnear⟩ := h (i :: [r]) [r] hfind
    obtain ⟨rest, hrest⟩ := exists_triedYaws distance beyond hi stone rng' run []
    rw [triedYaws_idle hself hblock hyaw hfind hbounds hstone, hrest] at hyaws
    cases hyaws
    exact hnear _ mem_cons_self
  by_cases hmin : bounds.1 = -999
  · have hmax := hfinite.resolve_left (not_not.mpr hmin)
    have hfar := hfirst 0 (stoneDown run.efficacy yaw bounds.1) [0] (by
      rw [strafeStone_eq, if_pos hmin, if_neg hmax])
    simp only [stoneDown, add_sub_cancel_left, hmin] at hfar
    norm_num at hfar
  · by_cases hmax : bounds.2 = 999
    · have hfar := hfirst 0 (stoneUp run.efficacy yaw bounds.2) [0] (by
        rw [strafeStone_eq, if_neg hmin, if_pos hmax])
      simp only [stoneUp, add_sub_cancel_left, hmax] at hfar
      norm_num at hfar
    · have hdown := hfirst 0 (stoneDown run.efficacy yaw bounds.1) [] (by
        rw [strafeStone_eq, if_neg hmin, if_neg hmax, randomAbove_half]
        norm_num)
      have hup := hfirst (2 ^ 32 - 1) (stoneUp run.efficacy yaw bounds.2) [] (by
        rw [strafeStone_eq, if_neg hmin, if_neg hmax, randomAbove_half]
        norm_num)
      simp only [stoneDown, stoneUp, add_sub_cancel_left] at hdown hup
      exact ⟨(abs_le.mp hdown).1, (abs_le.mp hup).2⟩

end Whole

/-- **`StrafeAdjuster` explores from a finite bound, within half a turn,** for every outcome of the
coin and every sequence of efficacies, exactly if its block strafes in a fixed direction or each side
has a frame whose change is within half a turn. -/
theorem strafe_search_explores_iff (distance : Vec ℚ → Vec ℚ → ℚ) (beyond : ℕ → FrameData ℚ)
    (self : BlockRoller ℚ) (hself : self.currentBlockIndex = none) (script : TASScript ℚ)
    (run : Measured) (i : ℕ) (block : FrameBlock ℚ) (yaw : ℚ)
    (hblock : script.blocks[i]? = some block) (hyaw : block.convars.find? strafeYaw = some yaw)
    (hfinite : (strafeBounds (rationalArith distance) beyond script run.vecData i block).1 ≠ -999 ∨
      (strafeBounds (rationalArith distance) beyond script run.vecData i block).2 ≠ 999) :
    (∀ (rng rng' : Draws) (runs : List Measured),
      findSuitableBlock (rationalArith distance) hasStrafeYaw script rng = some (some i, rng') →
        ∃ yaws, triedYaws distance beyond self script rng (run :: runs) = some yaws ∧
          Explores yaw
            (strafeBounds (rationalArith distance) beyond script run.vecData i block) yaws) ↔
      StrafesDirection (rationalArith distance) block ∨
        (∃ data ∈ examinedData beyond script run.vecData i block,
          BoundsBelow distance yaw data ∧ increment distance yaw data ≤ 180) ∧
        ∃ data ∈ examinedData beyond script run.vecData i block,
          BoundsAbove distance yaw data ∧ increment distance yaw data ≤ 180 := by
  by_cases hdir : StrafesDirection (rationalArith distance) block
  · refine iff_of_true (fun rng rng' runs hfind => ?_) (.inl hdir)
    rw [strafeBounds_direction beyond script run.vecData i hyaw hdir]
    exact explores_of_bounds hself hblock hyaw
      (strafeBounds_direction beyond script run.vecData i hyaw hdir) (by norm_num) (by norm_num)
      (by norm_num) (by norm_num) hfind runs
  · have hbounds := boundsOf_strafeBounds beyond script run.vecData i hyaw hdir
    rw [or_iff_right hdir, ← hbounds.below_iff, ← hbounds.above_iff]
    constructor
    · intro h
      refine bounds_of_explores hself hblock hyaw rfl hfinite fun rng rng' hfind => ?_
      obtain ⟨yaws, hyaws, hexplores⟩ := h rng rng' [] hfind
      exact ⟨yaws, hyaws, hexplores.near⟩
    · rintro ⟨hlow, hhigh⟩ rng rng' runs hfind
      exact explores_of_bounds hself hblock hyaw rfl hbounds.below_neg hlow hbounds.above_pos hhigh
        hfind runs

/-! ## Two searches -/

/-- A frame in which the player moves in a direction. -/
def movingFrame (velTheta : ℚ) : FrameData ℚ := ⟨⟨0, 0, 0⟩, velTheta⟩

/-- A block that sets the yaw to 10. -/
def tenDegrees : FrameBlock ℚ := { frame := 0, convars := empty.put strafeYaw 10 }

/-- An adjuster that has just been constructed. -/
def newAdjuster : BlockRoller ℚ := blank (rationalArith fun _ _ => 0)

/-- The player moves to either side of the yaw. -/
def twoSides : Measured := ⟨[movingFrame 0, movingFrame 1], 0⟩

/-- With a frame to either side the search explores. -/
theorem strafe_search_explores_twoSides :
    ∃ yaws, triedYaws (fun _ _ => 0) (fun _ => movingFrame 0) newAdjuster { blocks := [tenDegrees] }
        [0, 0] [twoSides, ⟨[], 1⟩, ⟨[], 2⟩] = some yaws ∧
      Explores 10 (strafeBounds (rationalArith fun _ _ => 0) (fun _ => movingFrame 0)
        { blocks := [tenDegrees] } twoSides.vecData 0 tenDegrees) yaws := by
  refine (strafe_search_explores_iff (fun _ _ => 0) (fun _ => movingFrame 0) newAdjuster rfl
    { blocks := [tenDegrees] } twoSides 0 tenDegrees 10 rfl (by decide +kernel)
    (.inl (by decide +kernel))).mpr (.inr ⟨⟨movingFrame 0, by decide +kernel, ⟨?_, ?_⟩, ?_⟩,
      movingFrame 1, by decide +kernel, ⟨?_, ?_⟩, ?_⟩) [0, 0] [0] [⟨[], 1⟩, ⟨[], 2⟩]
    (by decide +kernel) <;> decide +kernel

/-- With a frame to one side only the first yaw tried is 999 degrees away. -/
theorem one_sided_search_starts_at_invalid_angle :
    strafeBounds (rationalArith fun _ _ => 0) (fun _ => movingFrame 0) { blocks := [tenDegrees] }
        [movingFrame 0] 0 tenDegrees = (-1001 / 100, 999) ∧
      triedYaws (fun _ _ => 0) (fun _ => movingFrame 0) newAdjuster { blocks := [tenDegrees] } []
        [⟨[movingFrame 0], 0⟩] = some [1009] ∧
      ¬ Explores 10 (-1001 / 100, 999) [1009] := by
  refine ⟨by decide +kernel, by decide +kernel, fun h => ?_⟩
  have hnear := h.near 1009 (mem_singleton_self _)
  norm_num at hnear

end TASQuake.Analysis.StrafeSearch
