import TASQuake.Lib.Decimal
import TASQuake.Model.EditBlocks
import TASQuake.Model.Random
import TASQuake.Model.Savestate
import Mathlib.Data.Rat.Floor

/-!
# The playback session

The static variables of tas/script_playback.cpp, drag_editing.cpp and afterframes.cpp, and
the functions that start, skip, continue and advance playback
(tas/script_playback.cpp:59-176, 556-680).

`playing` is `tas_playing.value`, which the code only ever sets to 0 and 1.  Not modelled are
the variables that nothing here reads (`tas_timescale`, `r_norefresh`, `key_dest`), what
`Cmd_TAS_Cmd_Reset` does to the engine, and the texts printed on success.
-/

namespace TASQuake

open Lib

/-- `tas_gamestate`. -/
inductive GameState where
  | paused
  | unpaused
  | loading
deriving DecidableEq, Inhabited

/-- `MouseState`. -/
inductive MouseState where
  | locked
  | strafe
  | yaw
  | pitch
  | mixed
  | swim
  | shot
deriving DecidableEq, Inhabited

/-- `AfterFrames`: a console text to be executed after a number of frames on which the filter
matches. -/
structure AfterFrames where
  frames : Int
  command : Str
  filter : ℕ
deriving DecidableEq

/-- `NoFilter`. -/
def noFilter : ℕ := 0

/-- `Unpaused`, the default filter of `AddAfterframes`. -/
def unpausedFilter : ℕ := 4

/-- `DragType`. -/
inductive DragType where
  | none
  | single
  | stack
deriving DecidableEq, Inhabited

/-- The static variables of drag_editing.cpp.  The accumulators are doubles in the source and
rationals here. -/
structure Drag (F : Type) where
  dragType : DragType := .none
  accumYaw : ℚ := 0
  accumPitch : ℚ := 0
  blockIndex : ℕ := 0
  originalFrame : Int := 0
  originalHadStrafeYaw : Bool := false
  originalStrafeyaw : F

/-- What the code computes on floats, and the engine's tables of commands. -/
structure Host (F : Type) where
  /-- `operator<<(std::ostream&, float)` -/
  ostream : F → Str
  /-- `Get_Default_Value` -/
  defaultValue : Str → F
  /-- conversion of an `int` to a `float` -/
  ofInt : Int → F
  /-- conversion of a `float` to an `int` -/
  toInt : F → Int
  /-- conversion of a `float` to a `bool` -/
  toBool : F → Bool
  /-- `Round(·, tas_edit_snap_threshold.value)` -/
  snap : F → F
  /-- `NormalizeDeg(yaw + accum_yaw)` -/
  turn : F → ℚ → F
  /-- `atof` -/
  atof : Str → F
  /-- `atoi` -/
  atoi : Str → Int
  isMovementCommand : Str → Bool
  isGameplayCvar : Str → Bool
  isDownCmd : Str → Bool

/-- The state of the editor. -/
structure Session (F : Type) where
  playback : PlaybackInfo F := {}
  gameState : GameState := .unpaused
  playing : Bool := false
  mouse : MouseState := .locked
  /-- `cl.viewangles[PITCH]` -/
  viewPitch : F
  /-- `cl.viewangles[YAW]` -/
  viewYaw : F
  /-- `old_angles` -/
  oldAngles : F × F
  currentStrafeyaw : F
  currentStrafepitch : F
  currentYaw : F
  currentPitch : F
  currentStrafe : Int := 0
  currentTurnframes : Int := 0
  runQueued : Bool := false
  runSkip : Bool := false
  runSs : Bool := false
  runDisconnected : Bool := false
  runFrame : Int := 0
  afterframes : List AfterFrames := []
  /-- the snapshot of a savestate is the list of blocks of the script at its creation -/
  savestates : Savestates (List (FrameBlock F)) := {}
  drag : Drag F

namespace Session

variable {F : Type}

/-- The session at start-up: no script, every static variable zero. -/
def init (host : Host F) : Session F :=
  let zero := host.ofInt 0
  { viewPitch := zero, viewYaw := zero, oldAngles := (zero, zero), currentStrafeyaw := zero
    currentStrafepitch := zero, currentYaw := zero, currentPitch := zero
    drag := { originalStrafeyaw := zero } }

/-- The blocks of the script being played. -/
def blocks (self : Session F) : List (FrameBlock F) := self.playback.currentScript.blocks

/-- `TAS_Game_Paused`. (tas/script_playback.cpp:1256-1259) -/
def gamePaused (self : Session F) : Bool := decide (self.gameState = .paused) && self.playing

/-- `playback.In_Edit_Mode()`. -/
def inEditMode (self : Session F) : Bool := self.playback.inEditMode self.gamePaused

/-- `In_Freecam`. (camera.cpp:11-14) -/
def inFreecam (env : HostEnv) (self : Session F) : Bool :=
  env.freecam && decide (self.gameState = .paused)

/-- `AddAfterframes`. (afterframes.cpp:54-57) -/
def addAfterframes (self : Session F) (frames : Int) (cmd : Str) (filter : ℕ) : Session F :=
  { self with afterframes := self.afterframes ++ [{ frames := frames, command := cmd, filter := filter }] }

/-- `Savestate_Script_Updated` on the session's savestates. -/
def scriptUpdated (self : Session F) (frame : Int) : Session F :=
  { self with savestates := self.savestates.scriptUpdated frame }

/-! ## Starting and continuing playback -/

/-- The pause frame that `Set_Pause_Frame` sets; `none` if no script is loaded.
(tas/script_playback.cpp:59-80) -/
def setPauseFrame (self : Session F) (pauseFrame : Int) : Option (Session F) :=
  match self.blocks.getLast? with
  | none => none
  | some lastBlock =>
    let frame := if 0 ≤ pauseFrame then pauseFrame else lastBlock.frame - (-1 - pauseFrame)
    some { self with playback := { self.playback with pauseFrame := frame } }

/-- `Can_Skip`. (tas/script_playback.cpp:82-85) -/
def canSkip (env : HostEnv) : Bool := decide (env.clsState = .disconnected)

/-- The command that ends a skip. -/
def endSkip : Str := str "tas_timescale 1; r_norefresh 0"

/-- `Savestate_Skip`. (tas/script_playback.cpp:87-101) -/
def savestateSkip (host : Host F) (self : Session F) (startFrame : Int) : Session F :=
  let self := { self with playback := { self.playback with currentFrame := startFrame } }
  let self :=
    if self.playback.currentFrame < self.playback.pauseFrame then
      self.addAfterframes (self.playback.pauseFrame - 1 - self.playback.currentFrame) endSkip
        unpausedFilter
    else self
  let playback := self.playback.calculateStack
  let playback := { playback with stacked := { playback.stacked with commands := [] } }
  { self with playback := playback }.addAfterframes 1 (playback.stacked.getCommand host.ostream)
    noFilter

/-- `Normal_Skip`. (tas/script_playback.cpp:103-108) -/
def normalSkip (self : Session F) : Session F :=
  self.addAfterframes (self.playback.pauseFrame - 1 - self.playback.currentFrame) endSkip
    unpausedFilter

/-- The console command that loads a savestate, as `snprintf` leaves it in `BUFFER[80]`.
(savestate.cpp:91-92) -/
def loadCommand (env : HostEnv) (elem : Savestate (List (FrameBlock F))) : Str :=
  (str "tas_ls savestates/" ++ env.savestatePrefix ++ decimal elem.number).take 79

/-- `Savestate_Load_State`: the session after the call and the frame returned.
(savestate.cpp:63-99) -/
def savestateLoadState (env : HostEnv) (self : Session F) (frame : Int) : Session F × Int :=
  match self.savestates.loadState env.savestateEnabled frame with
  | none => (self, -1)
  | some elem =>
    (({ self with gameState := .loading }.addAfterframes 1 (str "disconnect") noFilter
      ).addAfterframes 2 (loadCommand env elem) noFilter, elem.frame)

/-- The state from which `Run_Script` starts a script: frame 0, nothing stacked.
(tas/script_playback.cpp:132-136) -/
def prepareScript (self : Session F) : Session F :=
  { self with
    runDisconnected := false
    playback := { self.playback with currentFrame := 0, stacked := self.playback.stacked.reset }
    playing := true }

/-- The skip that `Run_Script` makes, to a savestate if there is one.
(tas/script_playback.cpp:138-149) -/
def skipScript (host : Host F) (env : HostEnv) (self : Session F) (frame : Int) (ss : Bool) :
    Session F :=
  let (loaded, ssFrame) := savestateLoadState env self frame
  if ssFrame < 0 && ss then normalSkip loaded else savestateSkip host loaded ssFrame

/-- `playback.script_running = true`. -/
def setRunning (self : Session F) : Session F :=
  { self with playback := { self.playback with scriptRunning := true } }

/-- The part of `Run_Script` after `Can_Skip` has answered `true`.
(tas/script_playback.cpp:132-151) -/
def startScript (host : Host F) (env : HostEnv) (self : Session F) (frame : Int)
    (skip ss : Bool) : Session F :=
  let self := self.prepareScript
  setRunning (if skip then skipScript host env self frame ss else self)

/-- The part of `Run_Script` that queues the script to be run once the game has disconnected.
(tas/script_playback.cpp:115-130) -/
def queueScript (self : Session F) (frame : Int) (skip ss : Bool) : Session F :=
  let self :=
    if self.runDisconnected then self
    else { self.addAfterframes 1 (str "disconnect") noFilter with runDisconnected := true }
  { self with
    gameState := .unpaused
    playing := false
    playback := { self.playback with currentFrame := 0 }
    runQueued := true
    runFrame := frame
    runSkip := skip
    runSs := ss }

/-- `Run_Script`. (tas/script_playback.cpp:110-152) -/
def runScript (host : Host F) (env : HostEnv) (self : Session F) (frame : Int) (skip ss : Bool) :
    Session F :=
  match self.setPauseFrame frame with
  | none => self
  | some self =>
    if canSkip env then startScript host env self frame skip ss
    else queueScript self frame skip ss

/-- `Continue_Script`. (tas/script_playback.cpp:154-161) -/
def continueScript (self : Session F) (frames : Int) : Session F :=
  match self.setPauseFrame (self.playback.currentFrame + frames) with
  | none => self
  | some self =>
    { self with playback := { self.playback with scriptRunning := true, shouldUnpause := true } }

/-- `Generic_Advance`. (tas/script_playback.cpp:163-176) -/
def genericAdvance (host : Host F) (env : HostEnv) (self : Session F) (frame : Int) : Session F :=
  if self.playback.currentFrame < frame then
    self.continueScript (frame - self.playback.currentFrame)
  else if frame < lowestFrame then self
  else runScript host env self frame true true

/-! ### What the start of a script does to `playback` -/

theorem setPauseFrame_inv {s s' : Session F} {frame : Int} (h : s.setPauseFrame frame = some s') :
    ∃ pauseFrame, s' = { s with playback := { s.playback with pauseFrame := pauseFrame } } := by
  unfold setPauseFrame at h
  split at h
  · cases h
  · exact ⟨_, (Option.some.inj h).symm⟩

theorem setPauseFrame_isSome {s : Session F} (h : s.blocks ≠ []) (frame : Int) :
    ∃ s', s.setPauseFrame frame = some s' := by
  unfold setPauseFrame
  cases hl : s.blocks.getLast? with
  | none => exact absurd (List.getLast?_eq_none_iff.mp hl) h
  | some b => exact ⟨_, rfl⟩

theorem savestateSkip_playback (host : Host F) (s : Session F) (k : Int) :
    (savestateSkip host s k).playback =
      { s.playback with
        currentFrame := k
        stacked := { (s.blocks.takeWhile fun b => decide (b.frame < k)).foldl FrameBlock.stack
            s.playback.stacked.reset with commands := [] } } := by
  unfold savestateSkip
  simp only
  split <;> rfl

theorem savestateLoadState_playback (env : HostEnv) (s : Session F) (frame : Int) :
    (savestateLoadState env s frame).1.playback = s.playback := by
  unfold savestateLoadState
  split <;> rfl

theorem savestateLoadState_frame (env : HostEnv) (s : Session F) (frame : Int) :
    (savestateLoadState env s frame).2 =
      ((s.savestates.loadState env.savestateEnabled frame).map Savestate.frame).getD (-1) := by
  unfold savestateLoadState
  split
  · next h =>
    rw [h]
    rfl
  · next h =>
    rw [h]
    rfl

/-- A skip without savestate leaves `playback` alone, one with a savestate resumes there. -/
theorem skipScript_playback (host : Host F) (env : HostEnv) (s : Session F) (frame : Int)
    (ss : Bool) :
    (skipScript host env s frame ss).playback =
      if (savestateLoadState env s frame).2 < 0 && ss then s.playback
      else (savestateSkip host s (savestateLoadState env s frame).2).playback := by
  unfold skipScript
  simp only
  split
  · exact savestateLoadState_playback env s frame
  · rw [savestateSkip_playback, savestateSkip_playback, savestateLoadState_playback]
    unfold Session.blocks
    rw [savestateLoadState_playback]

theorem runScript_of_canSkip {host : Host F} {env : HostEnv} {s s' : Session F} {frame : Int}
    (hskip : canSkip env = true) (hs : s.setPauseFrame frame = some s') (skip ss : Bool) :
    runScript host env s frame skip ss = startScript host env s' frame skip ss := by
  unfold runScript
  rw [hs]
  exact if_pos hskip

/-! ## Playback commands -/

/-- `Cmd_TAS_Script_Play` without argument. (tas/script_playback.cpp:567-572) -/
def scriptPlay (host : Host F) (env : HostEnv) (self : Session F) : Session F :=
  runScript host env self (-1) false true

/-- `Cmd_TAS_Script_Stop`. (tas/script_playback.cpp:574-580) -/
def scriptStop (self : Session F) : Session F :=
  { self with
    playback := { self.playback with scriptRunning := false }
    playing := false
    afterframes := [] }

/-- `Cmd_TAS_Script_Skip`. (tas/script_playback.cpp:582-594) -/
def scriptSkip (host : Host F) (env : HostEnv) (self : Session F) (frame : Int) : Session F :=
  let frame := if frame < 0 then self.playback.getLastFrame - frame - 1 else frame
  runScript host env self frame true true

/-- `Skip_To_Block`, for a block index that is an `int`. (tas/script_playback.cpp:596-606) -/
def skipToBlock (host : Host F) (env : HostEnv) (self : Session F) (block : Int) : Session F :=
  if block < lowestBlock then self
  else
    match self.blocks[block.toNat]? with
    | none => self
    | some b => runScript host env self b.frame true true

/-- `Cmd_TAS_Script_Skip_Block`. (tas/script_playback.cpp:608-629) -/
def scriptSkipBlock (host : Host F) (env : HostEnv) (self : Session F) (block : Int) :
    Session F :=
  let block := if block < 0 then (self.blocks.length : Int) - (0 - block) else block
  skipToBlock host env self block

/-- `Cmd_TAS_Script_Advance`. (tas/script_playback.cpp:631-648) -/
def scriptAdvance (host : Host F) (env : HostEnv) (self : Session F) (frames : Int) : Session F :=
  if self.playback.scriptRunning then self
  else genericAdvance host env self (self.playback.currentFrame + frames)

/-- The block that `Cmd_TAS_Script_Advance_Block` moves to. (tas/script_playback.cpp:665-669) -/
def advanceBlockTarget (self : Session F) (count : Int) : Int :=
  let target := (self.playback.getBlockNumber (-1) : Int) + count
  match self.playback.getCurrentBlock (-1) with
  | some curblock =>
    if curblock.frame ≠ self.playback.currentFrame ∧ 0 < count then target - 1 else target
  | none => target

/-- `Cmd_TAS_Script_Advance_Block`. (tas/script_playback.cpp:650-680) -/
def scriptAdvanceBlock (host : Host F) (env : HostEnv) (self : Session F) (count : Int) :
    Session F :=
  if self.playback.scriptRunning then self
  else
    let target := self.advanceBlockTarget count
    if target < lowestBlock then self
    else
      match self.blocks[target.toNat]? with
      | none => self
      | some block => genericAdvance host env self block.frame

/-- What `Cmd_TAS_Script_Advance_Block` comes to: the frame that it hands to `Generic_Advance`, or
the text that it prints. (tas/script_playback.cpp:650-680) -/
def advanceBlockResult (self : Session F) (count : Int) : Except Str Int :=
  if self.playback.scriptRunning then
    .error (str "Can't advance while script still running.\n")
  else
    let target := self.advanceBlockTarget count
    match if target < lowestBlock then none else self.blocks[target.toNat]? with
    | none =>
      .error (str "Tried to move to block " ++ decimalInt target ++
        str ", which is out of bounds!\n")
    | some block => .ok block.frame

theorem scriptAdvanceBlock_eq (host : Host F) (env : HostEnv) (self : Session F) (count : Int) :
    scriptAdvanceBlock host env self count =
      match self.advanceBlockResult count with
      | .ok frame => genericAdvance host env self frame
      | .error _ => self := by
  unfold scriptAdvanceBlock advanceBlockResult
  simp only
  split
  · rfl
  · split
    · rfl
    · cases self.blocks[(self.advanceBlockTarget count).toNat]? <;> rfl

/-! ## A host to evaluate examples on -/

/-- Integers for floats, `tas_...` for the convars and `+...` for the toggles. -/
def exampleHost : Host Int :=
  { ostream := decimalInt
    defaultValue := fun _ => 0
    ofInt := id
    toInt := id
    toBool := fun v => decide (v ≠ 0)
    snap := id
    turn := fun yaw accum => yaw + accum.num.tdiv accum.den
    atof := fun text => (ofDecimal text : Int)
    atoi := fun text => (ofDecimal text : Int)
    isMovementCommand := fun _ => false
    isGameplayCvar := fun name => (str "tas_").isPrefixOf name
    isDownCmd := fun name => (str "+").isPrefixOf name }

/-- A client that is in the game, or disconnected. -/
def exampleEnv (clsState : ClsState) : HostEnv :=
  { clsState := clsState
    signon := signons
    intermission := false
    movemessages := 10
    mapName := str "e1m1"
    savestateEnabled := true
    savestateAuto := false
    changelevelIssued := false
    scrDisabledForLoading := false
    freecam := false
    savestatePrefix := str "ss_"
    weaponDelay := 36
    now := 0 }

end Session

end TASQuake
