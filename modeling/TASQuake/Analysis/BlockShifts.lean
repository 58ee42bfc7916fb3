import TASQuake.Analysis.DragUndo
import TASQuake.Analysis.MutationOrder

/-!
# Moving blocks along the frames

`ShiftBlocks` moves a block and all blocks after it, `ShiftSingleBlock` the block alone.  Both clamp
the distance at the frame of the neighbour and not one frame before it, so that a block moved far
enough lands on that frame.  The drags of the mouse and `TurnOptimizer::Init` use these two.
-/

namespace TASQuake.Analysis.BlockShifts

open Lib Session MutationOrder FrameBlock DragUndo TASScript List

variable {F : Type}

/-- Strictly increasing frames, from 0 on. -/
structure Increasing (blocks : List (FrameBlock F)) : Prop where
  strict : blocks.Pairwise fun a b => a.frame < b.frame
  nonneg : ∀ b ∈ blocks, 0 ≤ b.frame

/-- The distance `d` is `delta` or stops short of it. -/
def Towards (d delta : Int) : Prop := (0 ≤ d ∧ d ≤ delta) ∨ (delta ≤ d ∧ d ≤ 0)

/-- Downwards, the block asked for a frame after that of the block before it. -/
def RoomBelow (s : TASScript F) (i : ℕ) (delta : Int) : Prop :=
  delta < 0 → 0 < i → s.frameAt (i - 1) < s.frameAt i + delta

instance (s : TASScript F) (i : ℕ) (delta : Int) : Decidable (RoomBelow s i delta) :=
  inferInstanceAs (Decidable (_ → _))

/-! ## Moved lists -/

theorem increasing_append_cons {before after : List (FrameBlock F)} {block : FrameBlock F} :
    Increasing (before ++ block :: after) ↔
      (Increasing before ∧ Increasing after ∧ (∀ a ∈ before, ∀ c ∈ after, a.frame < c.frame)) ∧
        (∀ a ∈ before, a.frame < block.frame) ∧ (∀ c ∈ after, block.frame < c.frame) ∧
        0 ≤ block.frame := by
  constructor
  · rintro ⟨hstrict, hnonneg⟩
    obtain ⟨hbefore, hcons, hcross⟩ := pairwise_append.mp hstrict
    obtain ⟨hblock, hafter⟩ := pairwise_cons.mp hcons
    refine ⟨⟨⟨hbefore, fun a ha => hnonneg a ?_⟩, ⟨hafter, fun c hc => hnonneg c ?_⟩, ?_⟩, ?_,
      hblock, hnonneg block ?_⟩
    · exact mem_append_left _ ha
    · exact mem_append_right _ (mem_cons_of_mem _ hc)
    · exact fun a ha c hc => hcross a ha c (mem_cons_of_mem _ hc)
    · exact fun a ha => hcross a ha block mem_cons_self
    · exact mem_append_right _ mem_cons_self
  · rintro ⟨⟨hbefore, hafter, hcross⟩, hlow, hhigh, hblock⟩
    constructor
    · refine pairwise_append.mpr
        ⟨hbefore.strict, pairwise_cons.mpr ⟨hhigh, hafter.strict⟩, fun a ha c hc => ?_⟩
      rcases mem_cons.mp hc with rfl | hc
      · exact hlow a ha
      · exact hcross a ha c hc
    · intro b hb
      rcases mem_append.mp hb with hb | hb
      · exact hbefore.nonneg b hb
      · rcases mem_cons.mp hb with rfl | hb
        · exact hblock
        · exact hafter.nonneg b hb

theorem increasing_congr {blocks blocks' : List (FrameBlock F)}
    (h : blocks'.map frame = blocks.map frame) :
    Increasing blocks' ↔ Increasing blocks := by
  have hiff : ∀ l : List (FrameBlock F), Increasing l ↔
      (l.map frame).Pairwise (· < ·) ∧ ∀ f ∈ l.map frame, 0 ≤ f := by
    intro l
    rw [pairwise_map, forall_mem_map]
    exact ⟨fun hl => ⟨hl.strict, hl.nonneg⟩, fun hl => ⟨hl.1, hl.2⟩⟩
  rw [hiff, hiff, h]

section Lists

variable {before after : List (FrameBlock F)} {block : FrameBlock F}
  (hs : Increasing (before ++ block :: after))

include hs

theorem increasing_stack_iff (d : Int) :
    Increasing (before ++ block.shiftFrame d :: after.map (shiftFrame d)) ↔
      (∀ a ∈ before, a.frame < block.frame + d) ∧ 0 ≤ block.frame + d := by
  obtain ⟨⟨hbefore, hafter, -⟩, -, hhigh, -⟩ := increasing_append_cons.mp hs
  have hshifted : ∀ c ∈ after, (block.shiftFrame d).frame < (c.shiftFrame d).frame := by
    intro c hc
    have hlt := hhigh c hc
    show block.frame + d < c.frame + d
    omega
  rw [increasing_append_cons]
  simp only [forall_mem_map]
  constructor
  · exact fun h => ⟨h.2.1, h.2.2.2⟩
  · rintro ⟨hlow, hzero⟩
    refine ⟨⟨hbefore, ⟨?_, ?_⟩, ?_⟩, hlow, hshifted, hzero⟩
    · rw [pairwise_map]
      refine hafter.strict.imp fun {a b} hab => ?_
      show a.frame + d < b.frame + d
      omega
    · rw [forall_mem_map]
      intro c hc
      exact (show 0 ≤ (block.shiftFrame d).frame from hzero).trans (hshifted c hc).le
    · intro a ha c hc
      exact (hlow a ha).trans (hshifted c hc)

end Lists

/-! ## The neighbours of a block -/

variable {s : TASScript F} {i : ℕ}

theorem wellOrdered_of_increasing (hs : Increasing s.blocks) : s.WellOrdered :=
  ⟨hs.strict.imp fun hab => hab.le, hs.nonneg⟩

theorem frameAt_lt (hs : Increasing s.blocks) {j k : ℕ} (hjk : j < k) (hk : k < s.blocks.length) :
    s.frameAt j < s.frameAt k := by
  rw [frameAt_eq hk, frameAt_eq (hjk.trans hk)]
  exact pairwise_iff_getElem.mp hs.strict j k (hjk.trans hk) hk hjk

theorem blocks_eq_split (hi : i < s.blocks.length) :
    s.blocks = s.blocks.take i ++ s.blocks[i] :: s.blocks.drop (i + 1) := by
  rw [getElem_cons_drop, take_append_drop]

section Neighbours

variable (hs : Increasing s.blocks) (hi : i < s.blocks.length)

include hs hi

theorem forall_take_lt_iff (x : Int) :
    (∀ a ∈ s.blocks.take i, a.frame < x) ↔ (0 < i → s.frameAt (i - 1) < x) := by
  constructor
  · intro h hpos
    rw [frameAt_eq (by omega)]
    exact h _ (mem_take_iff_getElem.mpr ⟨i - 1, by omega, rfl⟩)
  · intro h a ha
    obtain ⟨j, hj, rfl⟩ := mem_take_iff_getElem.mp ha
    have hlast := h (by omega)
    have hle := frameAt_le (wellOrdered_of_increasing hs)
      (show j ≤ i - 1 by omega) (by omega)
    rw [frameAt_eq (show j < s.blocks.length by omega)] at hle
    exact hle.trans_lt hlast

end Neighbours

/-! ## The two shifts -/

theorem blocks_shiftBlocks (hi : i < s.blocks.length) (delta : Int) :
    (s.shiftBlocks i delta).1.blocks =
      s.blocks.take i ++ (s.blocks[i]).shiftFrame (s.shiftDelta i s.blocks[i] delta) ::
        (s.blocks.drop (i + 1)).map
          (shiftFrame (s.shiftDelta i s.blocks[i] delta)) := by
  have hlen := length_take_of_le hi.le
  have h := shiftBlocks_eq s _ _ _ (blocks_eq_split hi) delta
  rwa [hlen] at h

theorem frame_add_shiftDelta (hi : i < s.blocks.length) (delta : Int) :
    (s.blocks[i]).frame + s.shiftDelta i s.blocks[i] delta =
      if delta < 0 then max (s.minValue i) (s.frameAt i + delta) else s.frameAt i + delta := by
  rw [frameAt_eq hi]
  unfold shiftDelta
  dsimp only
  split
  · split <;> omega
  · rfl

variable {delta : Int}

section Shifts

variable (hs : Increasing s.blocks) (hi : i < s.blocks.length)

include hs hi

theorem minValue_le_frameAt : 0 ≤ s.minValue i ∧ s.minValue i ≤ s.frameAt i := by
  have hord := wellOrdered_of_increasing hs
  rw [frameAt_eq hi]
  exact ⟨minValue_nonneg hord i, minValue_le hord hi⟩

variable (delta : Int)

theorem towards_shiftDelta : Towards (s.shiftDelta i s.blocks[i] delta) delta := by
  have hmin := minValue_le_frameAt hs hi
  have hframe := frame_add_shiftDelta hi delta
  rw [frameAt_eq hi] at hmin hframe
  unfold Towards
  split at hframe <;> omega

theorem lt_max_minValue_iff :
    ((0 < i → s.frameAt (i - 1) < max (s.minValue i) (s.frameAt i + delta)) ∧
        0 ≤ max (s.minValue i) (s.frameAt i + delta)) ↔
      (0 < i → s.frameAt (i - 1) < s.frameAt i + delta) := by
  obtain ⟨hzero, -⟩ := minValue_le_frameAt hs hi
  constructor
  · rintro ⟨h, -⟩ hpos
    have hlt := h hpos
    rw [minValue_eq, if_neg (by omega)] at hlt
    omega
  · intro h
    refine ⟨fun hpos => ?_, by omega⟩
    have hlt := h hpos
    omega

theorem increasing_shiftBlocks_iff :
    Increasing (s.shiftBlocks i delta).1.blocks ↔ RoomBelow s i delta := by
  have hsplit := hs
  rw [blocks_eq_split hi] at hsplit
  rw [blocks_shiftBlocks hi, increasing_stack_iff hsplit, forall_take_lt_iff hs hi,
    frame_add_shiftDelta hi]
  unfold RoomBelow
  by_cases hneg : delta < 0
  · rw [if_pos hneg, lt_max_minValue_iff hs hi]
    exact ⟨fun h _ => h, fun h => h hneg⟩
  · rw [if_neg hneg]
    have hmin := minValue_le_frameAt hs hi
    refine iff_of_true ⟨fun hpos => ?_, by omega⟩ fun h => absurd h hneg
    have hlt := frameAt_lt hs (show i - 1 < i by omega) hi
    omega

end Shifts

/-- A block and all blocks after it are moved by one distance, the others are untouched. -/
def StackMoved (s t : TASScript F) (i : ℕ) (delta : Int) : Prop :=
  ∃ d, Towards d delta ∧
    t.blocks = s.blocks.take i ++ (s.blocks.drop i).map (shiftFrame d)

theorem stackMoved_shiftBlocks (hs : Increasing s.blocks) (hi : i < s.blocks.length)
    (delta : Int) : StackMoved s (s.shiftBlocks i delta).1 i delta := by
  refine ⟨_, towards_shiftDelta hs hi delta, ?_⟩
  rw [blocks_shiftBlocks hi, drop_eq_getElem_cons hi, map_cons]

section Drags

variable {s : Session F} (hs : Increasing s.blocks)
  (hi : s.drag.blockIndex < s.blocks.length) (htype : s.drag.dragType ≠ .none)

include hs hi htype

variable (ticks : Int)

end Drags

section Turns

variable {R : Type} [LinearOrder R]

/-- The direction in which `TurnOptimizer::Init` moves the turn. (optimizer.cpp:1392-1403) -/
def turnDelta (ops : MutatorArith F R) (rng : Draws) : Int :=
  if (ops.randomAbove (ops.frac 1 2) (ops.randomAbove (ops.frac 1 4) rng).2).1 then 1 else -1

/-- The script after `TurnOptimizer::Init`: the turn and the blocks after it are moved, and reading
the yaw of the strafe block may have added it. -/
def TurnMoved (ops : MutatorArith F R) (s t : TASScript F) (turn : ℕ) (delta : Int) : Prop :=
  ∃ u, StackMoved s u turn delta ∧ (t = u ∨ ∃ strafe yaw, readStrafeYaw ops u strafe = some (yaw, t))

omit [LinearOrder R] in
theorem frames_readStrafeYaw {ops : MutatorArith F R} {u t : TASScript F} {strafe : ℕ} {yaw : F}
    (h : readStrafeYaw ops u strafe = some (yaw, t)) :
    t.blocks.map frame = u.blocks.map frame := by
  unfold readStrafeYaw at h
  obtain ⟨b, -, heq⟩ := Option.map_eq_some_iff.mp h
  obtain ⟨-, rfl⟩ := Prod.mk.inj heq
  unfold TASScript.modifyBlock
  apply map_modify_of_key
  intro b
  rfl

theorem initTurn_script {ops : MutatorArith F R} {self self' : TurnOptimizer F R}
    {s t : TASScript F} {turn : ℕ} {rng rng' : Draws}
    (h : self.initTurn ops s turn rng = some (self', t, rng')) :
    t = (s.shiftBlocks turn (turnDelta ops rng)).1 ∨
      ∃ strafe yaw, readStrafeYaw ops (s.shiftBlocks turn (turnDelta ops rng)).1 strafe =
        some (yaw, t) := by
  unfold TurnOptimizer.initTurn at h
  dsimp only at h
  unfold turnDelta
  generalize (if (ops.randomAbove (ops.frac 1 2) (ops.randomAbove (ops.frac 1 4) rng).2).1 = true
    then (1 : Int) else -1) = delta at h ⊢
  split at h
  · simp only [Option.some.injEq, Prod.mk.injEq] at h
    exact .inl h.2.1.symm
  · simp only [bind_eq_some, Option.some.injEq, Prod.mk.injEq, Prod.exists] at h
    obtain ⟨yaw, u, hread, -, rfl, -⟩ := h
    exact .inr ⟨_, yaw, hread⟩

theorem initTurn_spec {ops : MutatorArith F R} {self self' : TurnOptimizer F R}
    {s t : TASScript F} {turn : ℕ} {rng rng' : Draws} (hs : Increasing s.blocks)
    (hturn : turn < s.blocks.length)
    (h : self.initTurn ops s turn rng = some (self', t, rng')) :
    TurnMoved ops s t turn (turnDelta ops rng) ∧
      (Increasing t.blocks ↔ RoomBelow s turn (turnDelta ops rng)) := by
  have hscript := initTurn_script h
  refine ⟨⟨_, stackMoved_shiftBlocks hs hturn _, hscript⟩, ?_⟩
  rw [← increasing_shiftBlocks_iff hs hturn]
  apply increasing_congr
  rcases hscript with rfl | ⟨strafe, yaw, hread⟩
  · rfl
  · exact frames_readStrafeYaw hread

end Turns

/-! ### Landing on a neighbour -/

/-- Two blocks, on frames 0 and 10. -/
def twoBlocks : TASScript Int := { blocks := [{ frame := 0 }, { frame := 10 }] }

end TASQuake.Analysis.BlockShifts
