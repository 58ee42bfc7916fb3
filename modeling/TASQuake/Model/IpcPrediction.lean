import TASQuake.Model.Script
import TASQuake.Model.Savestate

/-!
# Predictions made by another game

A game that edits a script (the server) lets another game (the client) play it and report the
path of an entity: `Request`, `IPC_Prediction_Read_Response` and `IPC_Prediction_HasLine` of
tas/ipc_prediction.cpp, `GamePrediction_Receive_IPC` and `GamePrediction_Frame_Hook` of
tas/real_prediction.cpp, and `TASScript::ApplyChanges`.

* The messages travel in two queues, and carry a script and a prediction as values.
* `world` is the list of the blocks executed on each frame; what an entity's position is in it is
  left to `Game`.  A savestate holds the world of its frame.
* `sent` of a message is a history variable: the time at which `Request` was called.
-/

namespace TASQuake

open Lib

/-! ## Applying a changed script -/

namespace TASScript

variable {F : Type}

/-- Whether `ApplyChanges` takes two blocks for the same: it compares their frames and their
texts, in which `ostream` has printed the values of the convars. -/
def sameBlock (ostream : F → Str) (a b : FrameBlock F) : Bool :=
  decide (a.frame = b.frame) && decide (a.getCommand ostream = b.getCommand ostream)

/-- The number of blocks that `ApplyChanges` keeps and the first frame that it reports as
changed, from the frame `first` on. (script_parse.cpp:240-253) -/
def compareBlocks (ostream : F → Str) (first : Int) :
    List (FrameBlock F) → List (FrameBlock F) → ℕ × Int
  | blockOrig :: orig, blockNew :: new =>
    if sameBlock ostream blockOrig blockNew then
      let (kept, changed) := compareBlocks ostream first orig new
      (kept + 1, changed)
    else (0, min blockOrig.frame blockNew.frame)
  | _, _ => (0, first)

/-- `first_changed_frame` before the comparison. (script_parse.cpp:234-238) -/
def lastBlockFrame (blocks : List (FrameBlock F)) : Int :=
  match blocks.getLast? with
  | some block => block.frame
  | none => 0

/-- `TASScript::ApplyChanges`, with the `first_changed_frame` it sets. (script_parse.cpp:233-259) -/
def applyChanges (ostream : F → Str) (self script : TASScript F) : TASScript F × Int :=
  let (kept, changed) :=
    compareBlocks ostream (lastBlockFrame self.blocks) self.blocks script.blocks
  ({ self with blocks := self.blocks.take kept ++ script.blocks.drop kept }, changed)

end TASScript

/-! ## Predictions -/

/-- `FrameBlockIndex`. -/
structure FrameBlockIndex where
  blockIndex : ℕ
  frame : Int
deriving DecidableEq

/-- `PredictionData`. -/
structure PredictionData (V : Type) where
  points : List V := []
  fbdata : List FrameBlockIndex := []
  startFrame : Int := 0
  endFrame : Int := 0
deriving DecidableEq

/-- The blocks executed on each frame of a game so far. -/
abbrev World (F : Type) := List (List (FrameBlock F))

/-- What the game computes. -/
structure Game (F V : Type) where
  /-- the position of an entity -/
  origin : World F → Int → V
  /-- `operator<<(std::ostream&, float)` -/
  ostream : F → Str

/-- The message that `Request` sends. -/
structure PredictRequest (F : Type) where
  startFrame : Int
  endFrame : Int
  requestId : ℕ
  entity : Int
  script : TASScript F
  sent : ℕ

/-- The message that `GamePredition_IPC_Respond` sends. -/
structure PredictResponse (V : Type) where
  requestId : ℕ
  data : PredictionData V
  sent : ℕ

/-! ## The server -/

/-- The static variables of ipc_prediction.cpp and the playback of the server. -/
structure PredictionServer (F V : Type) where
  playback : PlaybackInfo F := {}
  /-- `tas_predict_endoffset.value * 72` -/
  endOffset : Int := 0
  /-- `tas_predict_maxlength.value * 72` -/
  maxLength : Int := 0
  lastRequest : ℕ := 0
  lastRequestId : ℕ := 0
  currentLineTime : ℕ := 0
  data : PredictionData V := {}

namespace PredictionServer

variable {F V : Type}

/-- `Get_Prediction_Frames`. (Source/tas/prediction.cpp:34-42) -/
def getPredictionFrames (self : PredictionServer F V) : Int × Int :=
  let startFrame := self.playback.currentFrame
  let diffy := max 2 (self.playback.getLastFrame + self.endOffset - startFrame)
  (startFrame, startFrame + min self.maxLength diffy)

/-- An edit of the script at the time `now`. -/
def edit (self : PredictionServer F V) (script : TASScript F) (now : ℕ) : PredictionServer F V :=
  { self with playback := { self.playback with currentScript := script, lastEdited := now } }

/-- The playback is moved to another frame, or the convars are changed. -/
def move (self : PredictionServer F V) (frame : ℕ) (endOffset maxLength : Int) :
    PredictionServer F V :=
  { self with
    playback := { self.playback with currentFrame := frame }
    endOffset := endOffset
    maxLength := maxLength }

/-- `Request` at the time `now`, with a client or without. (ipc_prediction.cpp:19-45) -/
def request (self : PredictionServer F V) (connected : Bool) (entity : Int) (now : ℕ) :
    PredictionServer F V × Option (PredictRequest F) :=
  let self := { self with data := { self.data with points := [], fbdata := [] } }
  if !connected then (self, none)
  else
    let (currentFrame, targetFrame) := self.getPredictionFrames
    ({ self with lastRequest := now },
      some { startFrame := currentFrame, endFrame := targetFrame, requestId := self.lastRequestId
             entity := entity, script := self.playback.currentScript, sent := now })

/-- `IPC_Prediction_Read_Response`. (ipc_prediction.cpp:47-58) -/
def readResponse (self : PredictionServer F V) (msg : PredictResponse V) : PredictionServer F V :=
  if msg.requestId ≠ self.lastRequestId then self
  else { self with data := msg.data, currentLineTime := self.lastRequest }

/-- `IPC_Prediction_HasLine`. (ipc_prediction.cpp:83-88) -/
def hasLine (self : PredictionServer F V) : Bool :=
  let (startFrame, endFrame) := self.getPredictionFrames
  decide (self.playback.lastEdited ≤ self.currentLineTime) &&
    decide (endFrame ≤ self.data.endFrame) && decide (self.data.startFrame ≤ startFrame)

/-- `Should_Predict`; `paused` says that a script is played and the game is paused.
(ipc_prediction.cpp:60-73) -/
def shouldPredict (self : PredictionServer F V) (paused : Bool) : Bool :=
  if !paused then false
  else if self.lastRequest < self.playback.lastEdited then true
  else decide (self.currentLineTime = self.lastRequest) && !self.hasLine

end PredictionServer

/-! ## The client -/

/-- The static variables of real_prediction.cpp and what the client plays. -/
structure PredictionClient (F V : Type) where
  script : TASScript F := {}
  currentFrame : Int := 0
  /-- `tas_playing.value != 0` -/
  playing : Bool := false
  runQueued : Bool := false
  savestates : Savestates (World F) := {}
  world : World F := []
  data : PredictionData V := {}
  requestFinished : Bool := true
  predictionId : ℕ := 0
  predictionEntity : Int := 1
  /-- the time of the request being answered -/
  sent : ℕ := 0

namespace PredictionClient

variable {F V : Type}

/-- The blocks that are executed on a frame. -/
def executedAt (blocks : List (FrameBlock F)) (frame : Int) : List (FrameBlock F) :=
  blocks.filter fun b => decide (b.frame = frame)

/-- `GamePrediction_Receive_IPC`.  `Run_Script` does nothing if the script has no blocks; else it
stops the game and queues the script, which `start` runs.
(real_prediction.cpp:23-43, Source/tas/script_playback.cpp:110-130) -/
def receiveIpc (game : Game F V) (self : PredictionClient F V) (msg : PredictRequest F) :
    PredictionClient F V :=
  let (script, changed) := self.script.applyChanges game.ostream msg.script
  let self :=
    { self with
      data := { startFrame := msg.startFrame, endFrame := msg.endFrame }
      predictionId := msg.requestId
      predictionEntity := msg.entity
      script := script
      savestates := self.savestates.scriptUpdated (min changed msg.startFrame)
      requestFinished := false
      sent := msg.sent }
  if script.blocks.isEmpty then self
  else { self with playing := false, currentFrame := 0, runQueued := true }

/-- The queued `Run_Script`: the script is played from the savestate before the end frame, or
from the beginning. (Source/tas/script_playback.cpp:132-151, 390-395) -/
def start (self : PredictionClient F V) (savestateEnabled : Bool) : PredictionClient F V :=
  if !self.runQueued then self
  else
    let self := { self with runQueued := false, playing := true }
    match self.savestates.loadState savestateEnabled self.data.endFrame with
    | some elem =>
      if elem.frame < 0 then { self with currentFrame := 0, world := [] }
      else { self with currentFrame := elem.frame, world := elem.snapshot }
    | none => { self with currentFrame := 0, world := [] }

/-- The block index recorded on a frame: that of the block that starts on it.
(real_prediction.cpp:70-77) -/
def blockIndexAt (blocks : List (FrameBlock F)) (frame : Int) : Option FrameBlockIndex :=
  let playback : PlaybackInfo F := { currentScript := { blocks := blocks }, currentFrame := frame }
  match playback.getCurrentBlock (-1) with
  | some block =>
    if block.frame = frame then some ⟨playback.getBlockNumber (-1), block.frame⟩ else none
  | none => none

/-- Recording the current frame. (real_prediction.cpp:61-77) -/
def record (game : Game F V) (self : PredictionClient F V) : PredictionClient F V :=
  if self.data.startFrame ≤ self.currentFrame then
    { self with
      data :=
        { self.data with
          points := self.data.points ++ [game.origin self.world self.predictionEntity]
          fbdata := self.data.fbdata ++ (blockIndexAt self.script.blocks self.currentFrame).toList } }
  else self

/-- `GamePrediction_Frame_Hook`; `predictReal` is `tas_predict_real.value != 0`.
(real_prediction.cpp:45-86) -/
def frameHook (game : Game F V) (self : PredictionClient F V)
    (unpaused connected predictReal : Bool) : PredictionClient F V × Option (PredictResponse V) :=
  let self :=
    if self.playing && unpaused && (predictReal || !self.requestFinished) && connected then
      self.record game
    else self
  if !self.requestFinished && decide (self.data.endFrame - 1 ≤ self.currentFrame) then
    ({ self with requestFinished := true },
      some { requestId := self.predictionId, data := self.data, sent := self.sent })
  else (self, none)

/-- The script is played one frame further. -/
def advance (self : PredictionClient F V) (unpaused : Bool) : PredictionClient F V :=
  if self.playing && unpaused then
    { self with
      world := self.world ++ [executedAt self.script.blocks self.currentFrame]
      currentFrame := self.currentFrame + 1 }
  else self

/-- A savestate of the current frame. (savestate.cpp:37-61) -/
def createSavestate (self : PredictionClient F V) (mapName : Str) (force : Bool) :
    PredictionClient F V :=
  { self with
    savestates :=
      self.savestates.createSavestate self.playing mapName self.world self.currentFrame force }

end PredictionClient

/-! ## Both games -/

/-- The server, the client, the messages between them and the time. -/
structure PredictionSystem (F V : Type) where
  server : PredictionServer F V := {}
  client : PredictionClient F V := {}
  toClient : List (PredictRequest F) := []
  toServer : List (PredictResponse V) := []
  clock : ℕ := 0

/-- What can happen. -/
inductive PredictionEvent (F : Type) where
  | edit (script : TASScript F)
  | move (frame : ℕ) (endOffset maxLength : Int)
  | request (connected : Bool) (entity : Int)
  /-- `IPC_Prediction_Frame_Hook` -/
  | serverFrame (paused connected : Bool) (entity : Int)
  | receive
  | start (savestateEnabled : Bool)
  | clientFrame (unpaused connected predictReal : Bool)
  | savestate (mapName : Str) (force : Bool)
  | deliver

namespace PredictionSystem

variable {F V : Type}

/-- A call of `Request`. -/
def request (self : PredictionSystem F V) (connected : Bool) (entity : Int) :
    PredictionSystem F V :=
  let now := self.clock + 1
  let (server, msg) := self.server.request connected entity now
  { self with server := server, toClient := self.toClient ++ msg.toList, clock := now }

/-- The client takes the next message. -/
def receive (game : Game F V) (self : PredictionSystem F V) : PredictionSystem F V :=
  match self.toClient with
  | [] => self
  | msg :: rest => { self with client := self.client.receiveIpc game msg, toClient := rest }

/-- The server takes the next message. -/
def deliver (self : PredictionSystem F V) : PredictionSystem F V :=
  match self.toServer with
  | [] => self
  | msg :: rest => { self with server := self.server.readResponse msg, toServer := rest }

/-- A frame of the client. -/
def clientFrame (game : Game F V) (self : PredictionSystem F V)
    (unpaused connected predictReal : Bool) : PredictionSystem F V :=
  let (client, msg) := self.client.frameHook game unpaused connected predictReal
  { self with client := client.advance unpaused, toServer := self.toServer ++ msg.toList }

/-- One event. -/
def step (game : Game F V) (self : PredictionSystem F V) :
    PredictionEvent F → Option (PredictionSystem F V)
  | .edit script =>
    let now := self.clock + 1
    some { self with server := self.server.edit script now, clock := now }
  | .move frame endOffset maxLength =>
    some { self with server := self.server.move frame endOffset maxLength }
  | .request connected entity => some (self.request connected entity)
  | .serverFrame paused connected entity =>
    some (if self.server.shouldPredict paused then self.request connected entity else self)
  | .receive => some (self.receive game)
  | .start savestateEnabled => some { self with client := self.client.start savestateEnabled }
  | .clientFrame unpaused connected predictReal =>
    some (self.clientFrame game unpaused connected predictReal)
  | .savestate mapName force =>
    some { self with client := self.client.createSavestate mapName force }
  | .deliver => some self.deliver

end PredictionSystem

end TASQuake
