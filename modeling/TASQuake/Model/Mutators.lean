import TASQuake.Lib.Search
import TASQuake.Model.Searchers

/-!
# The optimizer's algorithms

The six classes derived from `OptimizerAlgorithm` (optimizer.cpp:565-612, 773-1181, 1309-1415).
`Mutate` is translated with every random draw in the order of the source; `none` is a call
that does not return or reads outside the vector of blocks.

* `m_iCurrentBlockIndex`, `m_iTurnIndex` and `m_iStrafeIndex` are `none` for `-1`.
* `StrafeBounds` can read behind the end of `m_vecData`; what it finds there is given by an
  argument.
* The bounds of a movable block are not negative, so their conversion to `size_t` is left out.
-/

namespace TASQuake

open Lib

variable {F R : Type}

/-! ## Looking for a block -/

/-- `modulo`. (optimizer.cpp:773-787) -/
def modulo (index size : Int) : Int :=
  if index = -1 then size - 1 else if index = size then 0 else index

/-- The next index that `FindSuitableBlock` looks at. -/
def nextProbe (size : ℕ) (probeDirection : Int) (index : ℕ) : ℕ :=
  (modulo ((index : Int) + probeDirection) size).toNat

/-- `FindSuitableBlock`. (optimizer.cpp:789-824) -/
def findSuitableBlock [LinearOrder R] (ops : MutatorArith F R)
    (predicate : TASScript F → ℕ → Bool) (script : TASScript F) (rng : Draws) :
    Option (Option ℕ × Draws) :=
  let size := script.blocks.length
  if size = 0 then some (none, rng)
  else
    let (r, rng) := draw rng
    let index := r % size
    if predicate script index then some (some index, rng)
    else do
      let (up, rng) := ops.randomAbove (ops.frac 1 2) rng
      let probeDirection := if up then 1 else -1
      let probeIndex ← searchRound (predicate script) (nextProbe size probeDirection) size index
      some (if probeIndex = index then none else some probeIndex, rng)

/-- The convar that most algorithms change. -/
def strafeYaw : Str := str "tas_strafe_yaw"

/-- `HasConvar("tas_strafe_yaw")` of a block. -/
def hasStrafeYaw (script : TASScript F) (i : ℕ) : Bool :=
  (script.blocks[i]?).any fun b => b.hasConvar strafeYaw

/-- Writing `convars["tas_strafe_yaw"]` of a block. -/
def writeStrafeYaw (ops : MutatorArith F R) (script : TASScript F) (i : ℕ) (value : R) :
    Option (TASScript F) :=
  (script.blocks[i]?).map fun _ => script.setConvarAt i strafeYaw (ops.toFloat value)

/-- Reading `convars["tas_strafe_yaw"]` of a block, which adds the convar if it is not there. -/
def readStrafeYaw (ops : MutatorArith F R) (script : TASScript F) (i : ℕ) :
    Option (F × TASScript F) :=
  (script.blocks[i]?).map fun b =>
    let zero := ops.toFloat (ops.ofInt 0)
    ((b.convars.find? strafeYaw).getD zero,
      script.modifyBlock i fun b => { b with convars := b.convars.touch strafeYaw zero })

/-! ## RNGShooter -/

/-- `RNGShooter::Mutate`. (optimizer.cpp:839-857) -/
def rngShooterMutate (script : TASScript F) (lastFrame : Int) (rng : Draws) :
    TASScript F × Draws :=
  let (count, rng) := randomInt 1 (lastFrame / 36 + 2) rng
  let script := script.removeTogglesFromRange (str "attack") 0 lastFrame
  match generateRandomIntegers count 0 lastFrame 36 rng with
  | .error _ => (script, rng)
  | .ok (integers, rng) =>
    let script := script.removeTogglesFromRange (str "attack") 0 lastFrame
    (integers.foldl
      (fun script frame =>
        (script.addToggle (str "attack") true frame).addToggle (str "attack") false (frame + 1))
      script, rng)

/-! ## RNGStrafer -/

/-- `RNGStrafer::Mutate`. (optimizer.cpp:870-889) -/
def rngStraferMutate [LinearOrder R] (ops : MutatorArith F R) (script : TASScript F)
    (rng : Draws) : Option (TASScript F × Draws) := do
  if script.blocks.length = 0 then none
  else
    let (r, rng) := draw rng
    let blockIndex := r % script.blocks.length
    let block ← script.blocks[blockIndex]?
    let (value, rng) :=
      match block.convars.find? strafeYaw with
      | some prev =>
        let (p, rng) := ops.random (ops.ofInt 0) (ops.ofInt 1) rng
        if p < ops.frac 4 5 then
          let (change, rng) := ops.random (ops.ofInt (-5)) (ops.ofInt 5) rng
          (ops.normalizeDeg (ops.add (ops.ofFloat prev) change), rng)
        else ops.random (ops.ofInt 0) (ops.ofInt 360) rng
      | none => ops.random (ops.ofInt 0) (ops.ofInt 360) rng
    let script ← writeStrafeYaw ops script blockIndex value
    some (script, rng)

/-! ## StrafeAdjuster -/

/-- `INVALID_ANGLE`. -/
def invalidAngle (ops : MutatorArith F R) : F := ops.toFloat (ops.ofInt 999)

/-- The negation of a float. -/
def negFloat (ops : MutatorArith F R) (x : F) : F := ops.toFloat (ops.neg (ops.ofFloat x))

/-- `FrameData::FindSmallestStrafeYawIncrements` on the pair of `min` and `max`.
(optimizer.cpp:1160-1181) -/
def FrameData.findSmallestStrafeYawIncrements [LinearOrder R] (ops : MutatorArith F R)
    (self : FrameData R) (yaw : F) (bounds : F × F) : F × F :=
  if self.velTheta = ops.ofInt 999 then bounds
  else
    let targetTheta := ops.mul (ops.ofFloat yaw) (ops.div ops.pi (ops.ofInt 180))
    let diff := ops.normalizeRad (ops.sub targetTheta self.velTheta)
    let epsDeg := ops.ofFloat (ops.toFloat (ops.frac 1 100))
    let absDiffDeg := ops.toFloat
      (ops.add (ops.abs (ops.mul diff (ops.div (ops.ofInt 180) ops.pi))) epsDeg)
    if ops.ofInt 0 ≤ diff then
      let lower := negFloat ops absDiffDeg
      (if ops.ofFloat bounds.1 < ops.ofFloat lower then lower else bounds.1, bounds.2)
    else
      (bounds.1, if ops.ofFloat absDiffDeg < ops.ofFloat bounds.2 then absDiffDeg else bounds.2)

/-- The conversion of an `int` to `size_t`. -/
def toSizeT (n : Int) : ℕ := (n % 2 ^ 64).toNat

/-- The frames whose data `StrafeBounds` looks at.  The loop over the later blocks compares an
iterator of a block with the end of the map of another block; the two are never equal, so that
`last_frame` is the frame of the last block, whatever convars the blocks set.
(optimizer.cpp:587-607) -/
def strafeFrames (script : TASScript F) (recorded : ℕ) (blockIndex : ℕ) (startFrame : Int) :
    List ℕ :=
  let lastFrame := (script.blocks.drop (blockIndex + 1)).foldl (fun _ b => b.frame) (-1)
  let lastFrame := if lastFrame = -1 then (recorded : Int) else lastFrame
  List.range' (toSizeT startFrame) (toSizeT lastFrame - toSizeT startFrame)

/-- `OptimizerRun::StrafeBounds`; `beyond` are the values behind the end of `m_vecData`.
(optimizer.cpp:565-612) -/
def strafeBounds [LinearOrder R] [BEq F] (ops : MutatorArith F R) (beyond : ℕ → FrameData R)
    (script : TASScript F) (vecData : List (FrameData R)) (blockIndex : ℕ) (block : FrameBlock F) :
    F × F :=
  let none := (negFloat ops (invalidAngle ops), invalidAngle ops)
  match block.convars.find? strafeYaw with
  | .none => none
  | some yaw =>
    if block.hasCvarValue (str "tas_strafe_type") (ops.toFloat (ops.ofInt 3)) then
      -- direction strafing
      (ops.toFloat (ops.frac (-1) 100), ops.toFloat (ops.frac 1 100))
    else
      (strafeFrames script vecData.length blockIndex block.frame).foldl
        (fun bounds i =>
          (vecData.getD i (beyond i)).findSmallestStrafeYawIncrements ops yaw bounds)
        none

/-- The private variables of `StrafeAdjuster` and of `FrameBlockMover`. -/
structure BlockRoller (R : Type) where
  currentBlockIndex : Option ℕ
  stone : RollingStone R

namespace BlockRoller

/-- A newly constructed one. -/
def blank (ops : MutatorArith F R) : BlockRoller R := ⟨none, .blank ops⟩

/-- `StrafeAdjuster::ReportResult` and `FrameBlockMover::ReportResult`.
(optimizer.cpp:980-990, 1148-1158) -/
def reportResult [LinearOrder R] (ops : MutatorArith F R) (self : BlockRoller R) (efficacy : R) :
    BlockRoller R :=
  if self.stone.shouldContinue efficacy then { self with stone := self.stone.nextValue ops }
  else { self with currentBlockIndex := none }

end BlockRoller

/-- The stone that `StrafeAdjuster` starts with, from the bounds of the block's yaw; `none` if
the angle does nothing. (optimizer.cpp:923-952) -/
def strafeStone [LinearOrder R] (ops : MutatorArith F R) (efficacy : R) (yaw min max : F)
    (rng : Draws) : Option (RollingStone R) × Draws :=
  let noMin := decide (ops.ofFloat min = ops.ofFloat (negFloat ops (invalidAngle ops)))
  let noMax := decide (ops.ofFloat max = ops.ofFloat (invalidAngle ops))
  if noMin && noMax then (none, rng)
  else
    let (pickMin, rng) :=
      if noMin then (false, rng)
      else if noMax then (true, rng)
      else ops.randomAbove (ops.frac 1 2) rng
    let start (bound : F) : R :=
      ops.ofFloat (ops.toFloat (ops.add (ops.ofFloat yaw) (ops.ofFloat bound)))
    if pickMin then
      (some
        { prevEfficacy := efficacy, currentValue := start max, prevDelta := ops.ofFloat max
          max := ops.add (ops.ofFloat yaw) (ops.ofInt 180) }, rng)
    else
      (some
        { prevEfficacy := efficacy, currentValue := start min, prevDelta := ops.ofFloat min
          max := ops.sub (ops.ofFloat yaw) (ops.ofInt 180) }, rng)

/-- Writing the value of the stone. (optimizer.cpp:954) -/
def writeStone [LinearOrder R] (ops : MutatorArith F R) (self : BlockRoller R) (i : ℕ)
    (script : TASScript F) (rng : Draws) : Option (BlockRoller R × TASScript F × Draws) := do
  let script ← writeStrafeYaw ops script i (ops.normalizeDeg self.stone.currentValue)
  some (self, script, rng)

/-- `StrafeAdjuster::Mutate`. (optimizer.cpp:905-955) -/
def strafeAdjusterMutate [LinearOrder R] [BEq F] (ops : MutatorArith F R)
    (beyond : ℕ → FrameData R) (self : BlockRoller R) (script : TASScript F)
    (vecData : List (FrameData R)) (efficacy : R) (rng : Draws) :
    Option (BlockRoller R × TASScript F × Draws) :=
  match self.currentBlockIndex with
  | some i => writeStone ops self i script rng
  | none => do
    let (index, rng) ← findSuitableBlock ops hasStrafeYaw script rng
    match index with
    | none => some (self, script, rng)
    | some i =>
      let (yaw, script) ← readStrafeYaw ops script i
      let block ← script.blocks[i]?
      let (min, max) := strafeBounds ops beyond script vecData i block
      match strafeStone ops efficacy yaw min max rng with
      | (none, rng) => some (self, script, rng)
      | (some stone, rng) => writeStone ops ⟨some i, stone⟩ i script rng

/-! ## Moving blocks -/

/-- `MovableBlock`. (optimizer.cpp:992-1011) -/
def movableBlock (script : TASScript F) (index : ℕ) : Bool :=
  let frame := script.frameAt index
  if index = script.blocks.length - 1 then true
  else if frame + 1 < script.frameAt (index + 1) then true
  else if 0 < index ∧ script.frameAt (index - 1) < frame - 1 then true
  else false

/-- `find_block_minmax`, and the same computation in `FrameBlockMover::Mutate`.
(optimizer.cpp:1013-1032, 1078-1094) -/
def findBlockMinmax (script : TASScript F) (frames : Int) (index : ℕ) : Int × Int :=
  let max :=
    if index = script.blocks.length - 1 then Min.min frames (script.frameAt index + 36)
    else script.frameAt (index + 1) - 1
  let min := if index = 0 then 0 else script.frameAt (index - 1) + 1
  (min, max)

/-- The frame that `RNGBlockMover` chooses. (optimizer.cpp:1039-1047) -/
def chooseFrame (ops : MutatorArith F R) (min max frame : Int) (rng : Draws) : Int × Draws :=
  let (value, rng) := ops.random (ops.ofInt min) (ops.ofInt (max + 1)) rng
  let result := ops.trunc value
  (if result = 0 then if min < frame then min else max else result, rng)

/-- `RNGBlockMover::Mutate`. (optimizer.cpp:1034-1056) -/
def rngBlockMoverMutate [LinearOrder R] (ops : MutatorArith F R) (script : TASScript F)
    (lastFrame : Int) (rng : Draws) : Option (TASScript F × Draws) := do
  let (found, rng) ← findSuitableBlock ops movableBlock script rng
  let index ← found
  let block ← script.blocks[index]?
  let (min, max) := findBlockMinmax script (lastFrame - 1) index
  let (result, rng) := chooseFrame ops min max block.frame rng
  let (shift, rng) := ops.randomAbove (ops.frac 1 2) rng
  if shift then some ((script.shiftBlocks index (result - block.frame)).1, rng)
  else some (script.modifyBlock index fun b => { b with frame := result }, rng)

/-- The stone that `FrameBlockMover` starts with; `none` if the block cannot move.
(optimizer.cpp:1072-1128) -/
def frameStone [LinearOrder R] (ops : MutatorArith F R) (efficacy : R) (frame min max : Int)
    (rng : Draws) : Option (RollingStone R) × Draws :=
  let positiveLegal := decide (ops.ofInt max ≠ ops.ofInt frame)
  let negativeLegal := decide (ops.ofInt min ≠ ops.ofInt frame)
  if !positiveLegal && !negativeLegal then (none, rng)
  else
    let (r, rng) := draw rng
    let positive :=
      if !positiveLegal then false
      else if !negativeLegal then true
      else decide (ops.frac 1 2 < ops.unit r)
    let delta := ops.ofInt (if positive then 1 else -1)
    (some
      { prevEfficacy := efficacy, currentValue := ops.add (ops.ofInt frame) delta
        prevDelta := delta, max := ops.ofInt (if positive then max else min) }, rng)

/-- The block moved to where the stone is. (optimizer.cpp:1131-1133) -/
def rollBlock (ops : MutatorArith F R) (self : BlockRoller R) (i : ℕ) (script : TASScript F)
    (rng : Draws) : Option (BlockRoller R × TASScript F × Draws) := do
  let block ← script.blocks[i]?
  let delta := ops.trunc (ops.sub self.stone.currentValue (ops.ofInt block.frame))
  some (self, (script.shiftBlocks i delta).1, rng)

/-- `FrameBlockMover::Mutate`.  When the block cannot move, its index is kept and the stone
stays as it was. (optimizer.cpp:1058-1134) -/
def frameBlockMoverMutate [LinearOrder R] (ops : MutatorArith F R) (self : BlockRoller R)
    (script : TASScript F) (lastFrame : Int) (efficacy : R) (rng : Draws) :
    Option (BlockRoller R × TASScript F × Draws) :=
  if script.blocks.length = 0 then some (self, script, rng)
  else
    match self.currentBlockIndex with
    | some i => rollBlock ops self i script rng
    | none => do
      let (found, rng) ← findSuitableBlock ops movableBlock script rng
      let i ← found
      let block ← script.blocks[i]?
      let (min, max) := findBlockMinmax script (lastFrame - 1) i
      match frameStone ops efficacy block.frame min max rng with
      | (none, rng) => some ({ self with currentBlockIndex := some i }, script, rng)
      | (some stone, rng) => rollBlock ops ⟨some i, stone⟩ i script rng

/-! ## TurnOptimizer -/

/-- The private variables of `TurnOptimizer`. -/
structure TurnOptimizer (F R : Type) where
  turnIndex : Option ℕ
  strafeIndex : Option ℕ
  origStrafeYaw : F
  searchMax : R
  searcher : BinSearcher R

namespace TurnOptimizer

/-- A newly constructed one. -/
def blank (ops : MutatorArith F R) : TurnOptimizer F R :=
  { turnIndex := none, strafeIndex := none, origStrafeYaw := ops.toFloat (ops.ofInt 0)
    searchMax := ops.ofInt 0, searcher := .blank ops }

/-- `FindStrafeBlock`. (optimizer.cpp:1355-1372) -/
def findStrafeBlock (script : TASScript F) (turnIndex : ℕ) : ℕ :=
  ((List.range turnIndex).reverse.find? (hasStrafeYaw script)).getD turnIndex

/-- `IsTurnFrameBlock`. (optimizer.cpp:1374-1380) -/
def isTurnFrameBlock (script : TASScript F) (blockIndex : ℕ) : Bool :=
  hasStrafeYaw script blockIndex && decide (findStrafeBlock script blockIndex ≠ blockIndex)

/-- `m_dSearchMax` from its random draw. (optimizer.cpp:1412-1414) -/
def clampSearchMax [LinearOrder R] (ops : MutatorArith F R) (searchMax : R) : R :=
  let absMax := max (ops.frac 1 10) (ops.abs searchMax)
  if searchMax < ops.ofInt 0 then ops.neg absMax else absMax

/-- `TurnOptimizer::Init` on the block that has been found. (optimizer.cpp:1392-1414) -/
def initTurn [LinearOrder R] (ops : MutatorArith F R) (self : TurnOptimizer F R)
    (script : TASScript F) (turn : ℕ) (rng : Draws) :
    Option (TurnOptimizer F R × TASScript F × Draws) := do
  let (previous, rng) := ops.randomAbove (ops.frac 1 4) rng
  let strafe := if previous then findStrafeBlock script turn else turn
  let (up, rng) := ops.randomAbove (ops.frac 1 2) rng
  let (script, shifted) := script.shiftBlocks turn (if up then 1 else -1)
  if !shifted then some ({ self with turnIndex := none, strafeIndex := none }, script, rng)
  else
    let (yaw, script) ← readStrafeYaw ops script strafe
    let (searchMax, rng) := ops.random (ops.ofInt (-90)) (ops.ofInt 90) rng
    some
      ({ self with
          turnIndex := some turn
          strafeIndex := some strafe
          origStrafeYaw := yaw
          searchMax := clampSearchMax ops searchMax }, script, rng)

/-- `TurnOptimizer::Init`. (optimizer.cpp:1382-1415) -/
def init [LinearOrder R] (ops : MutatorArith F R) (self : TurnOptimizer F R)
    (script : TASScript F) (rng : Draws) : Option (TurnOptimizer F R × TASScript F × Draws) := do
  let (found, rng) ← findSuitableBlock ops isTurnFrameBlock script rng
  match found with
  | none => some (self, script, rng)
  | some turn => self.initTurn ops script turn rng

/-- `TurnOptimizer::Mutate`. (optimizer.cpp:1309-1319) -/
def mutate [LinearOrder R] (ops : MutatorArith F R) (self : TurnOptimizer F R)
    (script : TASScript F) (rng : Draws) : Option (TurnOptimizer F R × TASScript F × Draws) :=
  match self.turnIndex with
  | none => self.init ops script rng
  | some _ => do
    let value ← self.searcher.getValue ops
    let strafe ← self.strafeIndex
    let script ← writeStrafeYaw ops script strafe (ops.normalizeDeg value)
    some (self, script, rng)

/-- `TurnOptimizer::Reset`. (optimizer.cpp:1321-1328) -/
def reset (ops : MutatorArith F R) (self : TurnOptimizer F R) : TurnOptimizer F R :=
  { blank ops with searcher := self.searcher.reset ops }

/-- `TurnOptimizer::WantsToContinue`. (optimizer.cpp:1335-1340) -/
def wantsToContinue (self : TurnOptimizer F R) : Bool :=
  self.turnIndex.isSome && decide (self.searcher.state ≠ .finished)

/-- `TurnOptimizer::ReportResult`. (optimizer.cpp:1342-1353) -/
def reportResult [LinearOrder R] (ops : MutatorArith F R) (self : TurnOptimizer F R)
    (efficacy : R) : TurnOptimizer F R :=
  let orig := ops.ofFloat self.origStrafeYaw
  match self.searcher.report ops efficacy with
  | none =>
    -- `NoSearch`
    { self with
      searcher := self.searcher.init ops orig efficacy (ops.add orig self.searchMax)
        (ops.frac 1 100) }
  | some searcher => { self with searcher := searcher }

end TurnOptimizer

/-! ## The six algorithms -/

/-- `AlgorithmEnum`. -/
inductive AlgorithmEnum where
  | turnOptimizer
  | rngStrafer
  | rngBlockMover
  | rngShooter
  | strafeAdjuster
  | frameBlockMover
deriving DecidableEq

/-- An object of one of the six classes. -/
inductive Algorithm (F R : Type) where
  | turnOptimizer (self : TurnOptimizer F R)
  | rngStrafer
  | rngBlockMover
  | rngShooter
  | strafeAdjuster (self : BlockRoller R)
  | frameBlockMover (self : BlockRoller R)

namespace Algorithm

/-- The object that `InitAlgorithms` makes. (optimizer.cpp:199-236) -/
def make (ops : MutatorArith F R) : AlgorithmEnum → Algorithm F R
  | .turnOptimizer => .turnOptimizer (.blank ops)
  | .rngStrafer => .rngStrafer
  | .rngBlockMover => .rngBlockMover
  | .rngShooter => .rngShooter
  | .strafeAdjuster => .strafeAdjuster (.blank ops)
  | .frameBlockMover => .frameBlockMover (.blank ops)

/-- `Mutate(&m_currentRun.playbackInfo.current_script, this)`. -/
def mutate [LinearOrder R] [BEq F] {A : Type} (ops : MutatorArith F R) (beyond : ℕ → FrameData R)
    (self : Algorithm F R) (opt : Optimizer F R A) : Option (Algorithm F R × TASScript F × Draws) :=
  let run := opt.currentRun
  match self with
  | .turnOptimizer self =>
    (self.mutate ops run.script opt.rng).map fun (self, script, rng) =>
      (.turnOptimizer self, script, rng)
  | .rngStrafer => (rngStraferMutate ops run.script opt.rng).map fun res => (.rngStrafer, res)
  | .rngBlockMover =>
    (rngBlockMoverMutate ops run.script opt.lastFrame opt.rng).map fun res => (.rngBlockMover, res)
  | .rngShooter => some (.rngShooter, rngShooterMutate run.script opt.lastFrame opt.rng)
  | .strafeAdjuster self =>
    (strafeAdjusterMutate ops beyond self run.script run.vecData run.efficacy opt.rng).map
      fun (self, script, rng) => (.strafeAdjuster self, script, rng)
  | .frameBlockMover self =>
    (frameBlockMoverMutate ops self run.script opt.lastFrame run.efficacy opt.rng).map
      fun (self, script, rng) => (.frameBlockMover self, script, rng)

/-- `ReportResult`. -/
def reportResult [LinearOrder R] (ops : MutatorArith F R) (efficacy : R) :
    Algorithm F R → Algorithm F R
  | .turnOptimizer self => .turnOptimizer (self.reportResult ops efficacy)
  | .strafeAdjuster self => .strafeAdjuster (self.reportResult ops efficacy)
  | .frameBlockMover self => .frameBlockMover (self.reportResult ops efficacy)
  | self => self

/-- `Reset`; `FrameBlockMover` keeps its variables. -/
def reset (ops : MutatorArith F R) : Algorithm F R → Algorithm F R
  | .turnOptimizer self => .turnOptimizer (self.reset ops)
  | .strafeAdjuster self => .strafeAdjuster { self with currentBlockIndex := none }
  | self => self

/-- `WantsToContinue`. -/
def wantsToContinue : Algorithm F R → Bool
  | .turnOptimizer self => self.wantsToContinue
  | .strafeAdjuster self => self.currentBlockIndex.isSome
  | .frameBlockMover self => self.currentBlockIndex.isSome
  | _ => false

end Algorithm

/-- The virtual functions of the six classes. -/
def algorithmOps [LinearOrder R] [BEq F] (ops : MutatorArith F R) (beyond : ℕ → FrameData R) :
    AlgorithmOps F R (Algorithm F R) :=
  { mutate := fun self opt => self.mutate ops beyond opt
    reportResult := fun self efficacy => self.reportResult ops efficacy
    reset := fun self => self.reset ops
    wantsToContinue := fun self => self.wantsToContinue
    iterationsExpected := fun _ => 1 }

end TASQuake
