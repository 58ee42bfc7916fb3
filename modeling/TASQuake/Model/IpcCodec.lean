import TASQuake.Model.IpcPrediction
import TASQuake.Model.Mutators
import TASQuake.Model.ScriptText

/-!
# The contents of messages

How `OptimizerSettings`, `PredictionData` and `OptimizerRun` are written to a buffer and read
back (optimizer.cpp:161-197, 614-643, prediction.cpp:6-20), and messages that are put together
from such values, from scripts and from members of fixed size.

Floats and doubles are elements of one type `R`, and `Layout` says how they lie in memory.
Reading overwrites some members of an object that is there already; a member that cannot be
read completely is indeterminate, and reading is then `none`.
-/

namespace TASQuake

open Lib Io TASScript

/-! ## Plain members -/

/-- The images in memory of `float` and `double`. -/
structure Layout (R : Type) where
  float : Pod R
  double : Pod R

namespace Layout

variable {R : Type}

/-- `Vector`: three floats. -/
def vector (self : Layout R) : Pod (Vec R) :=
  (self.float.pair (self.float.pair self.float)).record (fun v => ⟨v.1, v.2.1, v.2.2⟩)
    (fun v => (v.x, v.y, v.z)) fun _ => rfl

/-- `FrameData`: a vector of 12 bytes, and a double at a multiple of eight bytes. -/
def frameData (self : Layout R) : Pod (FrameData R) :=
  (self.vector.pair ((Pod.padding 4 Pod.four_pos).pair self.double)).record
    (fun d => ⟨d.1, d.2.2⟩) (fun d => (d.pos, (), d.velTheta)) fun _ => rfl

end Layout

/-- `OptimizerGoal`. (optimizer.hpp:187) -/
def goalPod : Pod OptimizerGoal :=
  .enum [.undetermined, .plusX, .negX, .plusY, .negY, .time, .plusZ, .negZ, .kills, .teleporter,
    .position] .undetermined (by decide)

/-- `AlgorithmEnum`. (optimizer.hpp:88) -/
def algorithmPod : Pod AlgorithmEnum :=
  .enum [.turnOptimizer, .rngStrafer, .rngBlockMover, .rngShooter, .strafeAdjuster,
    .frameBlockMover] .turnOptimizer (by decide)

/-- `FrameBlockIndex`: two words. (libtasquake/include/libtasquake/prediction.hpp:10-13) -/
def blockIndexPod : Pod FrameBlockIndex :=
  (Pod.uint32.pair Pod.word).record (fun i => ⟨i.1, i.2⟩) (fun i => (i.blockIndex, i.frame))
    fun _ => rfl

/-! ## Settings -/

/-- `OptimizerSettings` as it is sent, with the two lists that `InitAlgorithms` makes the
algorithms from. -/
structure SettingsRecord (R A : Type) where
  goal : OptimizerGoal := .undetermined
  targetPos : Vec R
  resetToBestIterations : ℕ := 3
  giveUpAfterNoProgress : ℕ := 99999
  endOffset : Int := 36
  frames : Int := -1
  minTotalHP : Int := 1
  entity : ℕ := 1
  algorithmData : List AlgorithmEnum := []
  algorithms : List A := []
  inputNodes : List (Vec R) := []
  secondaryGoals : Bool := false
  useNodes : Bool := true

namespace SettingsRecord

variable {R A : Type}

/-- `OptimizerSettings::WriteToBuffer`, or `none` if it aborts. (optimizer.cpp:161-180) -/
def writeToBuffer (layout : Layout R) (self : SettingsRecord R A) (writer : BufferWriter) :
    Option BufferWriter := do
  let writer ← writer.writePod goalPod self.goal
  let writer ← writer.writePod .int32 self.endOffset
  let writer ← writer.writePod .int32 self.frames
  let writer ← writer.writePod .uint32 self.giveUpAfterNoProgress
  let writer ← writer.writePod .uint32 self.resetToBestIterations
  let writer ← writer.writePod .bool self.useNodes
  let writer ← writer.writePod .bool self.secondaryGoals
  let writer ← writer.writePod .int32 self.minTotalHP
  let writer ← writer.writePod .uint32 self.entity
  let writer ← writer.writePod layout.vector self.targetPos
  let writer ← writer.writePodVec layout.vector self.inputNodes
  let writer ← writer.writePodVec algorithmPod self.algorithmData
  if self.algorithms.isEmpty then some writer else none

/-- `OptimizerSettings::ReadFromBuffer`. (optimizer.cpp:182-197) -/
def readFromBuffer (layout : Layout R) (self : SettingsRecord R A) (reader : BufferReader) :
    Option (SettingsRecord R A × BufferReader) := do
  let (goal, reader) ← reader.readPod goalPod
  let (endOffset, reader) ← reader.readPod .int32
  let (frames, reader) ← reader.readPod .int32
  let (giveUpAfterNoProgress, reader) ← reader.readPod .uint32
  let (resetToBestIterations, reader) ← reader.readPod .uint32
  let (useNodes, reader) ← reader.readPod .bool
  let (secondaryGoals, reader) ← reader.readPod .bool
  let (minTotalHP, reader) ← reader.readPod .int32
  let (entity, reader) ← reader.readPod .uint32
  let (targetPos, reader) ← reader.readPod layout.vector
  let (inputNodes, reader) ← reader.readPodVec layout.vector
  let (algorithmData, reader) ← reader.readPodVec algorithmPod
  some
    ({ self with
        goal := goal
        endOffset := endOffset
        frames := frames
        giveUpAfterNoProgress := giveUpAfterNoProgress
        resetToBestIterations := resetToBestIterations
        useNodes := useNodes
        secondaryGoals := secondaryGoals
        minTotalHP := minTotalHP
        entity := entity
        targetPos := targetPos
        inputNodes := inputNodes
        algorithmData := algorithmData }, reader)

end SettingsRecord

/-! ## Predictions -/

namespace PredictionData

variable {R : Type}

/-- `PredictionData::Write_To_Memory`. (libtasquake/src/prediction.cpp:14-20) -/
def writeToMemory (layout : Layout R) (self : PredictionData (Vec R)) (iface : BufferWriter) :
    Option BufferWriter := do
  let iface ← iface.writePod .int32 self.startFrame
  let iface ← iface.writePod .int32 self.endFrame
  let iface ← iface.writePodVec blockIndexPod self.fbdata
  iface.writePodVec layout.vector self.points

/-- `PredictionData::Load_From_Memory`, which overwrites every member.
(libtasquake/src/prediction.cpp:6-12) -/
def loadFromMemory (layout : Layout R) (iface : BufferReader) :
    Option (PredictionData (Vec R) × BufferReader) := do
  let (startFrame, iface) ← iface.readPod .int32
  let (endFrame, iface) ← iface.readPod .int32
  let (fbdata, iface) ← iface.readPodVec blockIndexPod
  let (points, iface) ← iface.readPodVec layout.vector
  some ({ startFrame := startFrame, endFrame := endFrame, fbdata := fbdata, points := points },
    iface)

end PredictionData

/-! ## Runs -/

namespace OptimizerRun

variable {F R : Type}

/-- A run with another script. -/
def withBlocks (self : OptimizerRun F R) (blocks : List (FrameBlock F)) : OptimizerRun F R :=
  { self with
    playbackInfo :=
      { self.playbackInfo with currentScript := { self.script with blocks := blocks } } }

/-- `OptimizerRun::WriteToBuffer`. (optimizer.cpp:614-627) -/
def writeToBuffer (layout : Layout R) (env : TextEnv F) (self : OptimizerRun F R)
    (writer : BufferWriter) : Option BufferWriter := do
  let writer ← writer.writePod layout.double self.efficacy
  let writer ← writer.writePod .bool self.finishedLevel
  let writer ← writer.writePod layout.double self.levelTime
  let writer ← writer.writePod .uint32 self.centerPrints
  let writer ← writer.writePod .uint32 self.kills
  let writer ← writer.writePod .uint32 self.secrets
  let writer ← writer.writePod .uint32 self.items
  let writer ← writer.writePod .bool self.died
  let writer ← writer.writePod layout.double self.teleportTime
  let writer ← writer.writePodVec layout.frameData self.vecData
  writeToMemory env self.script.blocks writer

/-- `OptimizerRun::ReadFromBuffer`, byte by byte; what `Load_From_Memory` returns is not looked
at. (optimizer.cpp:629-643) -/
def readFromReader (layout : Layout R) (env : TextEnv F) (self : OptimizerRun F R)
    (reader : BufferReader) : Option (OptimizerRun F R × BufferReader) := do
  let (efficacy, reader) ← reader.readPod layout.double
  let (finishedLevel, reader) ← reader.readPod .bool
  let (levelTime, reader) ← reader.readPod layout.double
  let (centerPrints, reader) ← reader.readPod .uint32
  let (kills, reader) ← reader.readPod .uint32
  let (secrets, reader) ← reader.readPod .uint32
  let (items, reader) ← reader.readPod .uint32
  let (died, reader) ← reader.readPod .bool
  let (teleportTime, reader) ← reader.readPod layout.double
  let (vecData, reader) ← reader.readPodVec layout.frameData
  let loaded ← loadFromMemory env [] reader
  some
    (({ self with
        efficacy := efficacy
        finishedLevel := finishedLevel
        levelTime := levelTime
        centerPrints := centerPrints
        kills := kills
        secrets := secrets
        items := items
        died := died
        teleportTime := teleportTime
        vecData := vecData } : OptimizerRun F R).withBlocks loaded.blocks, loaded.reader)

end OptimizerRun

/-! ## Messages -/

/-- A value that is part of a message, and the object it is read into (`old`).  A script is read
into an empty one. -/
inductive Item (F R A : Type) : Type 1 where
  | field {α : Type} (pod : Pod α) (value old : α)
  | settings (value old : SettingsRecord R A)
  | prediction (value old : PredictionData (Vec R))
  | run (value old : OptimizerRun F R)
  | script (value old : List (FrameBlock F))

namespace Item

variable {F R A : Type}

/-- Writing the value. -/
def write (layout : Layout R) (env : TextEnv F) (writer : BufferWriter) :
    Item F R A → Option BufferWriter
  | field pod value _ => writer.writePod pod value
  | settings value _ => value.writeToBuffer layout writer
  | prediction value _ => value.writeToMemory layout writer
  | run value _ => value.writeToBuffer layout env writer
  | script value _ => writeToMemory env value writer

/-- Reading into the object. -/
def read (layout : Layout R) (env : TextEnv F) (reader : BufferReader) :
    Item F R A → Option (Item F R A × BufferReader)
  | field pod value _ => (reader.readPod pod).map fun x => (field pod value x.1, x.2)
  | settings value old =>
    (old.readFromBuffer layout reader).map fun x => (settings value x.1, x.2)
  | prediction value _ =>
    (PredictionData.loadFromMemory layout reader).map fun x => (prediction value x.1, x.2)
  | run value old => (old.readFromReader layout env reader).map fun x => (run value x.1, x.2)
  | script value _ =>
    (loadFromMemory env [] reader).map fun x => (script value x.blocks, x.reader)

/-- Writing the values of a message one after the other. -/
def writeAll (layout : Layout R) (env : TextEnv F) (writer : BufferWriter)
    (items : List (Item F R A)) : Option BufferWriter :=
  items.foldlM (fun writer item => item.write layout env writer) writer

/-- Reading the values of a message one after the other. -/
def readAll (layout : Layout R) (env : TextEnv F) :
    BufferReader → List (Item F R A) → Option (List (Item F R A) × BufferReader)
  | reader, [] => some ([], reader)
  | reader, item :: items => do
    let (item, reader) ← item.read layout env reader
    let (items, reader) ← readAll layout env reader items
    some (item :: items, reader)

/-- The bytes of a message: its type, and what has been written after it. -/
def send (layout : Layout R) (env : TextEnv F) (type : UInt8) (items : List (Item F R A)) :
    Option (List UInt8) := do
  let writer ← BufferWriter.init.writePod .uint8 type
  let writer ← writeAll layout env writer items
  some (writer.mem.take writer.offset)

/-- Reading a message behind its type. -/
def receive (layout : Layout R) (env : TextEnv F) (msg : List UInt8) (items : List (Item F R A)) :
    Option (List (Item F R A) × BufferReader) :=
  readAll layout env { buffer := msg.drop 1, size := msg.length - 1 } items

/-- An integer of a message. -/
def int (value : Int) : Item F R A := field .int32 value 0

/-- The message `OptimizerTask`; `old` are the settings as they are constructed.
(optimizer_quake.cpp:349-366, 374-384) -/
def optimizerTask (value old : SettingsRecord R A) (startFrame endFrame identifier : Int)
    (blocks : List (FrameBlock F)) : List (Item F R A) :=
  [settings value old, int startFrame, int endFrame, int identifier, script blocks []]

/-- The message `OptimizerRun` that a client sends; the server does not read the script of the
game behind the run. (optimizer_quake.cpp:266-276, 485-490) -/
def optimizerRun (identifier : Int) (value old : OptimizerRun F R) (blocks : List (FrameBlock F)) :
    List (Item F R A) :=
  [int identifier, run value old, script blocks []]

/-- The request of the message `Predict`. (ipc_prediction.cpp:34-41, real_prediction.cpp:24-33) -/
def predictRequest (startFrame endFrame identifier entity : Int) (blocks : List (FrameBlock F)) :
    List (Item F R A) :=
  [int startFrame, int endFrame, int identifier, int entity, script blocks []]

/-- The response of the message `Predict`. (real_prediction.cpp:48-51, ipc_prediction.cpp:47-55) -/
def predictResponse (identifier : Int) (value old : PredictionData (Vec R)) :
    List (Item F R A) :=
  [int identifier, prediction value old]

end Item

end TASQuake
