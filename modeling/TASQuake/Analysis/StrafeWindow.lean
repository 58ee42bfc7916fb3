import TASQuake.Analysis.OptimizerSafety

/-!
# The frames that `StrafeBounds` looks at

The effect of a yaw lasts to the next block that sets the yaw, or to the end of the recorded frames.
`StrafeBounds` looks at the frames up to the last block of the script instead, which may lie behind
the recorded frames.
-/

namespace TASQuake.Analysis.StrafeWindow

open Lib MutationOrder OptimizerSafety OrderedMap List

variable {F R A : Type}

/-! ## The frames looked at -/

/-- The block strafes in a fixed direction. -/
def StrafesDirection [BEq F] (ops : MutatorArith F R) (block : FrameBlock F) : Prop :=
  block.hasCvarValue (str "tas_strafe_type") (ops.toFloat (ops.ofInt 3)) = true

instance [BEq F] (ops : MutatorArith F R) (block : FrameBlock F) :
    Decidable (StrafesDirection ops block) :=
  inferInstanceAs (Decidable (_ = true))

/-- The indices of `m_vecData` that `StrafeBounds` uses. -/
def examined [BEq F] (ops : MutatorArith F R) (script : TASScript F) (recorded : ℕ) (i : ℕ)
    (block : FrameBlock F) : List ℕ :=
  if (block.convars.find? strafeYaw).isNone then []
  else if StrafesDirection ops block then []
  else strafeFrames script recorded i block.frame

section Bounds

variable [LinearOrder R] [BEq F] {ops : MutatorArith F R} {block : FrameBlock F} {yaw : F}

theorem strafeBounds_of_direction (beyond : ℕ → FrameData R) (script : TASScript F)
    (vecData : List (FrameData R)) (i : ℕ) (hyaw : block.convars.find? strafeYaw = some yaw)
    (hdir : StrafesDirection ops block) :
    strafeBounds ops beyond script vecData i block =
      (ops.toFloat (ops.frac (-1) 100), ops.toFloat (ops.frac 1 100)) := by
  unfold strafeBounds
  rw [hyaw]
  exact if_pos hdir

theorem strafeBounds_of_frames (beyond : ℕ → FrameData R) (script : TASScript F)
    (vecData : List (FrameData R)) (i : ℕ) (hyaw : block.convars.find? strafeYaw = some yaw)
    (hdir : ¬ StrafesDirection ops block) :
    strafeBounds ops beyond script vecData i block =
      (strafeFrames script vecData.length i block.frame).foldl
        (fun bounds j =>
          (vecData.getD j (beyond j)).findSmallestStrafeYawIncrements ops yaw bounds)
        (negFloat ops (invalidAngle ops), invalidAngle ops) := by
  unfold strafeBounds
  rw [hyaw]
  exact if_neg hdir

omit [LinearOrder R] in
theorem examined_of_frames (script : TASScript F) (recorded i : ℕ)
    (hyaw : block.convars.find? strafeYaw = some yaw) (hdir : ¬ StrafesDirection ops block) :
    examined ops script recorded i block = strafeFrames script recorded i block.frame := by
  unfold examined
  rw [hyaw, Option.isNone_some, if_neg Bool.false_ne_true, if_neg hdir]

theorem strafeBounds_congr {beyond beyond' : ℕ → FrameData R} (script : TASScript F)
    {vecData vecData' : List (FrameData R)} (hlen : vecData'.length = vecData.length) (i : ℕ)
    (h : ∀ j ∈ examined ops script vecData.length i block,
      vecData'.getD j (beyond' j) = vecData.getD j (beyond j)) :
    strafeBounds ops beyond' script vecData' i block =
      strafeBounds ops beyond script vecData i block := by
  cases hyaw : block.convars.find? strafeYaw with
  | none =>
    unfold strafeBounds
    rw [hyaw]
  | some yaw =>
    by_cases hdir : StrafesDirection ops block
    · rw [strafeBounds_of_direction _ _ _ _ hyaw hdir, strafeBounds_of_direction _ _ _ _ hyaw hdir]
    · rw [examined_of_frames _ _ _ hyaw hdir] at h
      rw [strafeBounds_of_frames _ _ _ _ hyaw hdir, strafeBounds_of_frames _ _ _ _ hyaw hdir, hlen]
      apply foldl_ext
      intro bounds j hj
      rw [h j hj]

end Bounds

/-! ## The window -/

/-- The frame of the next block that sets the yaw. -/
def nextYawFrame (script : TASScript F) (i : ℕ) : Option Int :=
  ((script.blocks.drop (i + 1)).find? fun b => b.hasConvar strafeYaw).map FrameBlock.frame

/-- The frames from the block to the next one that sets the yaw, as far as they are recorded. -/
def InWindow (script : TASScript F) (recorded : ℕ) (i : ℕ) (start : Int) (j : ℕ) : Prop :=
  start ≤ j ∧ j < recorded ∧ ∀ f, nextYawFrame script i = some f → (j : Int) < f

/-- The end of the window. -/
def windowEnd (script : TASScript F) (recorded : ℕ) (i : ℕ) : Int :=
  min (recorded : Int) ((nextYawFrame script i).getD recorded)

variable {start : Int} {script : TASScript F} {recorded : ℕ}

theorem inWindow_iff {i : ℕ} {j : ℕ} :
    InWindow script recorded i start j ↔ start ≤ j ∧ (j : Int) < windowEnd script recorded i := by
  unfold InWindow windowEnd
  cases nextYawFrame script i with
  | none => simp
  | some f => simp

/-- The frame of the last block behind a block; without one, or if it is -1, the number of recorded
frames. -/
def lastBlockFrame (script : TASScript F) (recorded : ℕ) (i : ℕ) : Int :=
  match (script.blocks.drop (i + 1)).getLast? with
  | none => recorded
  | some b => if b.frame = -1 then recorded else b.frame

/-- An `int`. -/
def FitsInt (n : Int) : Prop := -2 ^ 31 ≤ n ∧ n < 2 ^ 31

instance (n : Int) : Decidable (FitsInt n) := inferInstanceAs (Decidable (_ ∧ _))

theorem foldl_frame_eq (blocks : List (FrameBlock F)) (frame : Int) :
    blocks.foldl (fun _ b => b.frame) frame = (blocks.getLast?.map FrameBlock.frame).getD frame := by
  induction blocks generalizing frame with
  | nil => rfl
  | cons b blocks ih =>
    rw [foldl_cons, ih]
    cases blocks with
    | nil => rfl
    | cons c blocks =>
      rw [getLast?_cons_cons]
      cases hlast : (c :: blocks).getLast? with
      | none => simp at hlast
      | some d => rfl

theorem strafeFrames_eq (script : TASScript F) (recorded i : ℕ) (start : Int) :
    strafeFrames script recorded i start = range' (toSizeT start)
      (toSizeT (lastBlockFrame script recorded i) - toSizeT start) := by
  have hlast : (let last := (script.blocks.drop (i + 1)).foldl (fun _ b => b.frame) (-1)
      if last = -1 then (recorded : Int) else last) = lastBlockFrame script recorded i := by
    rw [foldl_frame_eq]
    unfold lastBlockFrame
    cases (script.blocks.drop (i + 1)).getLast? with
    | none => rfl
    | some b => rfl
  unfold strafeFrames
  rw [← hlast]

theorem fitsInt_lastBlockFrame (hframes : ∀ b ∈ script.blocks, FitsInt b.frame)
    (hdata : FitsInt recorded) (i : ℕ) : FitsInt (lastBlockFrame script recorded i) := by
  unfold lastBlockFrame
  split
  · exact hdata
  · next b hb =>
    split
    · exact hdata
    · exact hframes b (mem_of_mem_drop (mem_of_getLast? hb))

theorem toSizeT_of_nonneg {n : Int} (h : FitsInt n) (hn : 0 ≤ n) : (toSizeT n : Int) = n := by
  obtain ⟨-, hlt⟩ := h
  unfold toSizeT
  omega

theorem toSizeT_of_neg {n : Int} (h : FitsInt n) (hn : n < 0) : (toSizeT n : Int) = n + 2 ^ 64 := by
  obtain ⟨hle, -⟩ := h
  unfold toSizeT
  omega

/-- The condition, on the frame of the block, the end of the window and the frame of the last block.
-/
def WindowFits (start windowEnd last : Int) : Prop :=
  0 ≤ start ∧ 0 ≤ last ∧ (last = windowEnd ∨ last ≤ start ∧ windowEnd ≤ start) ∨
    start < 0 ∧ windowEnd ≤ 0 ∧ (0 ≤ last ∨ last ≤ start)

instance (start windowEnd last : Int) : Decidable (WindowFits start windowEnd last) :=
  inferInstanceAs (Decidable (_ ∨ _))

/-- Two intervals of indices: those from `start` to `last` after their conversion to `size_t`, and
those of the window. -/
theorem interval_eq_iff {stop last : Int} (hstart : FitsInt start) (hlast : FitsInt last)
    (hstop : stop < 2 ^ 31) :
    (∀ j : ℕ, (toSizeT start ≤ j ∧ j < toSizeT last) ↔ (start ≤ j ∧ (j : Int) < stop)) ↔
      WindowFits start stop last := by
  unfold WindowFits
  rcases le_or_gt 0 start with hs | hs
  · have hs' := toSizeT_of_nonneg hstart hs
    rcases le_or_gt 0 last with hl | hl
    · have hl' := toSizeT_of_nonneg hlast hl
      constructor
      · intro h
        -- an index between the two ends is in one of the intervals only
        have hbetween := h (max start (min last stop)).toNat
        omega
      · intro h j
        omega
    · have hl' := toSizeT_of_neg hlast hl
      obtain ⟨-, hlt⟩ := hstart
      obtain ⟨hle, -⟩ := hlast
      constructor
      · intro h
        have hbig := h (2 ^ 63)
        omega
      · intro h
        omega
  · have hs' := toSizeT_of_neg hstart hs
    obtain ⟨hle, -⟩ := hstart
    rcases le_or_gt 0 last with hl | hl
    · have hl' := toSizeT_of_nonneg hlast hl
      obtain ⟨-, hlt⟩ := hlast
      constructor
      · intro h
        have hzero := h 0
        omega
      · intro h j
        omega
    · have hl' := toSizeT_of_neg hlast hl
      constructor
      · intro h
        have hzero := h 0
        have hfirst := h (toSizeT start)
        omega
      · intro h j
        omega

theorem mem_strafeFrames_iff {i : ℕ} {j : ℕ} :
    j ∈ strafeFrames script recorded i start ↔
      toSizeT start ≤ j ∧ j < toSizeT (lastBlockFrame script recorded i) := by
  rw [strafeFrames_eq, mem_range'_1]
  omega

/-! ## When the frames looked at are those of the window -/

/-- Every index used is that of a recorded frame, and the frames are exactly those of the window
unless the block strafes in a fixed direction, where the angle needs no frames. -/
def ReadsWindow [BEq F] (ops : MutatorArith F R) (script : TASScript F) (recorded : ℕ) (i : ℕ)
    (block : FrameBlock F) : Prop :=
  (∀ j ∈ examined ops script recorded i block, j < recorded) ∧
    (StrafesDirection ops block ∨ ∀ j, j ∈ examined ops script recorded i block ↔
      InWindow script recorded i block.frame j)

theorem readsWindow_of_direction [BEq F] {ops : MutatorArith F R} (script : TASScript F)
    (recorded i : ℕ) {block : FrameBlock F} (hdir : StrafesDirection ops block) :
    ReadsWindow ops script recorded i block := by
  have hnil : examined ops script recorded i block = [] := by
    unfold examined
    rw [if_pos hdir, ite_self]
  refine ⟨fun j hj => ?_, .inl hdir⟩
  rw [hnil] at hj
  cases hj

/-- **`StrafeBounds` reads the frames of its window**, and only recorded ones, exactly if the block
strafes in a fixed direction or the last block of the script is where the window ends.  What it
finds in other frames does not matter for the bounds. -/
theorem strafe_bounds_read_window_iff [LinearOrder R] [BEq F] (ops : MutatorArith F R)
    (opt : Optimizer F R A) (i : ℕ) (block : FrameBlock F)
    (hblock : opt.currentRun.script.blocks[i]? = some block)
    (hyaw : block.hasConvar strafeYaw = true)
    (hframes : ∀ b ∈ opt.currentRun.script.blocks, FitsInt b.frame)
    (hdata : FitsInt opt.currentRun.vecData.length) :
    (ReadsWindow ops opt.currentRun.script opt.currentRun.vecData.length i block ↔
      StrafesDirection ops block ∨
        WindowFits block.frame
          (windowEnd opt.currentRun.script opt.currentRun.vecData.length i)
          (lastBlockFrame opt.currentRun.script opt.currentRun.vecData.length i)) ∧
      ∀ (beyond beyond' : ℕ → FrameData R) (vecData : List (FrameData R)),
        vecData.length = opt.currentRun.vecData.length →
        (∀ j ∈ examined ops opt.currentRun.script opt.currentRun.vecData.length i block,
          vecData.getD j (beyond' j) = opt.currentRun.vecData.getD j (beyond j)) →
        strafeBounds ops beyond' opt.currentRun.script vecData i block =
          strafeBounds ops beyond opt.currentRun.script opt.currentRun.vecData i block := by
  refine ⟨?_, fun beyond beyond' vecData hlen h => strafeBounds_congr _ hlen i h⟩
  by_cases hdir : StrafesDirection ops block
  · exact iff_of_true (readsWindow_of_direction _ _ _ hdir) (.inl hdir)
  · obtain ⟨yaw, hyaw⟩ := Option.isSome_iff_exists.mp hyaw
    have hlt := hdata.2
    have hstop : windowEnd opt.currentRun.script opt.currentRun.vecData.length i < 2 ^ 31 :=
      (min_le_left _ _).trans_lt hlt
    have hiff := interval_eq_iff (hframes block (mem_of_getElem? hblock))
      (fitsInt_lastBlockFrame hframes hdata i) hstop
    rw [or_iff_right hdir, ← hiff]
    unfold ReadsWindow
    rw [examined_of_frames _ _ _ hyaw hdir, or_iff_right hdir]
    simp only [mem_strafeFrames_iff, inWindow_iff]
    refine ⟨And.right, fun h => ⟨fun j hj => ?_, h⟩⟩
    have hend := ((h j).mp hj).2
    have hle : windowEnd opt.currentRun.script opt.currentRun.vecData.length i ≤
        opt.currentRun.vecData.length := min_le_left _ _
    omega

/-! ## Two optimizers -/

/-- The second block sets the yaw, inside the recorded frames. -/
theorem strafe_bounds_read_window_twentyFrames :
    ReadsWindow exampleArith { blocks := twoTurns } 20 0
      { frame := 0, convars := empty.put strafeYaw 10 } :=
  (strafe_bounds_read_window_iff exampleArith
    (recorded
      ((exampleOptimizer [] 1 []).withScript { blocks := twoTurns })
      (replicate 20 ⟨⟨0, 0, 0⟩, 0⟩) 0)
    0 { frame := 0, convars := empty.put strafeYaw 10 } rfl (by decide)
    (by decide) (by decide)).1.mpr (.inr (by
      decide))

/-- The block that an idle `StrafeAdjuster` chooses when its `Mutate` is called, the number of
recorded frames and the frames looked at. -/
def adjusterCall : OptimizerCalls.Pending ℚ ℚ (Algorithm ℚ ℚ) → Option (ℕ × ℕ × List ℕ)
  | .calls t i =>
    match t.algorithms[i]? with
    | some (.strafeAdjuster ⟨none, _⟩) => do
      let (found, _) ← findSuitableBlock exampleArith hasStrafeYaw
        t.currentRun.script t.rng
      let index ← found
      let block ← t.currentRun.script.blocks[index]?
      some (index, t.currentRun.vecData.length,
        examined exampleArith t.currentRun.script t.currentRun.vecData.length index
          block)
    | _ => none
  | _ => none

/-- After the first frame of an optimizer, with iterations of one frame, the data of nine frames that
have not been recorded are read. -/
theorem strafe_bounds_read_beyond_data :
    ((OptimizerCalls.upToMutate exampleArith.toArith exampleAlgorithms
        (exampleRunner twoTurns [.strafeAdjuster]).opt
        originFrame).bind adjusterCall) =
      some (0, 1, [0, 1, 2, 3, 4, 5, 6, 7, 8, 9]) ∧
    ¬ ReadsWindow exampleArith { blocks := twoTurns } 1 0
      { frame := 0, convars := empty.put strafeYaw 10 } := by
  refine ⟨by decide +kernel, fun h => ?_⟩
  have hnine : 9 ∈ examined exampleArith { blocks := twoTurns } 1 0
      { frame := 0, convars := empty.put strafeYaw 10 } := by
    decide +kernel
  exact absurd (h.1 9 hnine) (by decide)

end TASQuake.Analysis.StrafeWindow
