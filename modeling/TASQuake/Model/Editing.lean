import TASQuake.Model.Session

/-!
# Editing a paused script

The functions of tas/script_playback.cpp and drag_editing.cpp through which the user edits
the script: single settings (`SetConvar`, `SetToggle`), the mouse modes, the editing
commands, drags, and the frame hook that both plays the script and applies the mouse.

A function that reads through the null pointer that `GetBlockForFrame` returns for an empty
script does not return: the result is `none`.
-/

namespace TASQuake.Session

open Lib

variable {F : Type}

/-! ## Reading settings -/

/-- `GetBlockForFrame`, on the session: the block's index and contents. -/
def blockForFrame (self : Session F) (frame : Int) : Option (Session F × ℕ × FrameBlock F) := do
  let (playback, i) ← self.playback.getBlockForFrame frame
  let block ← playback.currentScript.blocks[i]?
  some ({ self with playback := playback }, i, block)

/-- `Get_Stacked_Value`. (tas/script_playback.cpp:246-254) -/
def getStackedValue (host : Host F) (self : Session F) (name : Str) : F :=
  (self.playback.stacked.convars.find? name).getD (host.defaultValue name)

/-- `Get_Existing_Value`: asking for the block of the current frame adds one if it has none.
(tas/script_playback.cpp:256-266) -/
def getExistingValue (host : Host F) (self : Session F) (name : Str) : Option (Session F × F) := do
  let (self, _, curblock) ← self.blockForFrame (-1)
  some (self, (curblock.convars.find? name).getD (getStackedValue host self name))

/-- `Has_Existing_Value`. (tas/script_playback.cpp:268-274) -/
def hasExistingValue (self : Session F) (name : Str) : Option (Session F × Bool) := do
  let (self, _, curblock) ← self.blockForFrame (-1)
  some (self, curblock.convars.contains name || self.playback.stacked.convars.contains name)

/-- `Get_Stacked_Toggle`. (tas/script_playback.cpp:276-282) -/
def getStackedToggle (self : Session F) (cmd : Str) : Bool :=
  (self.playback.stacked.toggles.find? cmd).getD false

/-- `Get_Existing_Toggle`. (tas/script_playback.cpp:284-292) -/
def getExistingToggle (self : Session F) (cmd : Str) : Option (Session F × Bool) := do
  let (self, _, curblock) ← self.blockForFrame (-1)
  some (self, (curblock.toggles.find? cmd).getD (getStackedToggle self cmd))

/-! ## Writing settings -/

/-- Rewrite the block at an index. -/
def modifyBlock (self : Session F) (i : ℕ) (f : FrameBlock F → FrameBlock F) : Session F :=
  { self with
    playback := { self.playback with
      currentScript := self.playback.currentScript.modifyBlock i f } }

/-- `playback.last_edited = Sys_DoubleTime()`. -/
def touchEdited (env : HostEnv) (self : Session F) : Session F :=
  { self with playback := { self.playback with lastEdited := env.now } }

/-- `SetConvar`. (tas/script_playback.cpp:294-322) -/
def setConvar [BEq F] (host : Host F) (env : HostEnv) (self : Session F) (name : Str) (newVal : F)
    (frame : Int) : Option (Session F) := do
  let frame := self.playback.frameOrCurrent frame
  let (self, oldVal) ← getExistingValue host self name
  if newVal == oldVal then some self
  else
    let (self, i, block) ← (touchEdited env self).blockForFrame frame
    let self :=
      if getStackedValue host self name == newVal && block.convars.contains name then
        self.modifyBlock i fun b => { b with convars := b.convars.erase name }
      else self.modifyBlock i fun b => { b with convars := b.convars.put name newVal }
    some (self.scriptUpdated frame)

/-- `SetToggle`. (tas/script_playback.cpp:324-342) -/
def setToggle (env : HostEnv) (self : Session F) (cmd : Str) (newValue : Bool) (frame : Int) :
    Option (Session F) := do
  let frame := self.playback.frameOrCurrent frame
  let (self, i, block) ← (touchEdited env self).blockForFrame frame
  let self :=
    if getStackedToggle self cmd == newValue && block.toggles.contains cmd then
      self.modifyBlock i fun b => { b with toggles := b.toggles.erase cmd }
    else self.modifyBlock i fun b => { b with toggles := b.toggles.put cmd newValue }
  some (self.scriptUpdated frame)

/-- A run of `SetConvar` calls on the current frame. -/
def setConvars [BEq F] (host : Host F) (env : HostEnv) (self : Session F) (values : List (Str × F)) :
    Option (Session F) :=
  values.foldlM (fun s e => setConvar host env s e.1 e.2 (-1)) self

/-! ## The mouse modes -/

/-- The `Shot` branch of `ApplyMouseStuff`. (tas/script_playback.cpp:370-380) -/
def applyShot [BEq F] (env : HostEnv) (self : Session F) : Session F :=
  let (script, changed) := self.playback.currentScript.addShot self.viewPitch self.viewYaw
    self.playback.currentFrame self.currentTurnframes
  if changed then
    { self with
      playback := { self.playback with currentScript := script, lastEdited := env.now
        }.calculateStack }
  else self

/-- `ApplyMouseStuff`. (tas/script_playback.cpp:344-381) -/
def applyMouseStuff [BEq F] (host : Host F) (env : HostEnv) (self : Session F) :
    Option (Session F) :=
  match self.mouse with
  | .locked => some self
  | .strafe =>
    setConvars host env self
      [(str "tas_strafe", host.ofInt 1), (str "tas_strafe_yaw", host.snap self.viewYaw)]
  | .mixed =>
    setConvars host env self
      [(str "tas_view_yaw", self.viewYaw), (str "tas_view_pitch", self.viewPitch)]
  | .pitch => setConvars host env self [(str "tas_view_pitch", self.viewPitch)]
  | .yaw => setConvars host env self [(str "tas_view_yaw", self.viewYaw)]
  | .swim =>
    setConvars host env self
      [(str "tas_strafe_yaw", self.viewYaw), (str "tas_strafe_pitch", self.viewPitch)]
  | .shot => some (self.applyShot env)

/-- `Get_Pitch_Convar`. (tas/script_playback.cpp:707-717) -/
def getPitchConvar (host : Host F) (self : Session F) (name : Str) : Option (Session F × F) := do
  let (self, has) ← hasExistingValue self name
  if has then getExistingValue host self name else some (self, self.viewPitch)

/-- `Get_Yaw_Convar`. (tas/script_playback.cpp:719-729) -/
def getYawConvar (host : Host F) (self : Session F) (name : Str) : Option (Session F × F) := do
  let (self, has) ← hasExistingValue self name
  if has then getExistingValue host self name else some (self, self.viewYaw)

/-- The part of a mouse mode's start that remembers `tas_view_pitch` and turns the view to
it. -/
def startPitch (host : Host F) (self : Session F) : Option (Session F) := do
  let (self, v) ← getExistingValue host self (str "tas_view_pitch")
  let self := { self with currentPitch := v }
  let (self, v) ← getPitchConvar host self (str "tas_view_pitch")
  some { self with viewPitch := v }

/-- The same for `tas_view_yaw`. -/
def startYaw (host : Host F) (self : Session F) : Option (Session F) := do
  let (self, v) ← getExistingValue host self (str "tas_view_yaw")
  let self := { self with currentYaw := v }
  let (self, v) ← getYawConvar host self (str "tas_view_yaw")
  some { self with viewYaw := v }

/-- The part that `Cmd_TAS_Edit_Strafe` and `Cmd_TAS_Edit_Swim` share. -/
def startStrafe (host : Host F) (self : Session F) : Option (Session F) := do
  let (self, v) ← getExistingValue host self (str "tas_strafe")
  let self := { self with currentStrafe := host.toInt v }
  let (self, v) ← getExistingValue host self (str "tas_strafe_yaw")
  let self := { self with currentStrafeyaw := v }
  let (self, v) ← getYawConvar host self (str "tas_strafe_yaw")
  some { self with viewYaw := v }

/-- `Cmd_TAS_Edit_Strafe`. (tas/script_playback.cpp:731-738) -/
def editStrafe [BEq F] (host : Host F) (env : HostEnv) (self : Session F) :
    Option (Session F) := do
  let self ← startStrafe host self
  let self ← setConvars host env self [(str "tas_strafe", host.ofInt 1)]
  some { self with mouse := .strafe }

/-- `Cmd_TAS_Edit_Swim`; the pitch is looked up with `Get_Yaw_Convar`.
(tas/script_playback.cpp:782-792) -/
def editSwim [BEq F] (host : Host F) (env : HostEnv) (self : Session F) :
    Option (Session F) := do
  let self ← startStrafe host self
  let (self, v) ← getExistingValue host self (str "tas_strafe_pitch")
  let self := { self with currentStrafepitch := v }
  let (self, v) ← getYawConvar host self (str "tas_strafe_pitch")
  let self := { self with viewPitch := v }
  let self ← setConvars host env self
    [(str "tas_strafe", host.ofInt 1), (str "tas_strafe_type", host.ofInt 4)]
  some { self with mouse := .swim }

/-- `Cmd_TAS_Edit_Add_Shot` with a number of turn frames. (tas/script_playback.cpp:741-761) -/
def editAddShot (host : Host F) (self : Session F) (frames : Int) : Option (Session F) :=
  if frames ≤ 0 then some self
  else do
    let self := { self with mouse := .shot, currentTurnframes := frames }
    let self ← startPitch host self
    startYaw host self

/-- `Cmd_TAS_Edit_Set_Pitch`. (tas/script_playback.cpp:794-799) -/
def editSetPitch (host : Host F) (self : Session F) : Option (Session F) :=
  startPitch host { self with mouse := .pitch }

/-- `Cmd_TAS_Edit_Set_Yaw`. (tas/script_playback.cpp:801-806) -/
def editSetYaw (host : Host F) (self : Session F) : Option (Session F) :=
  startYaw host { self with mouse := .yaw }

/-- `Cmd_TAS_Edit_Set_View`. (tas/script_playback.cpp:808-815) -/
def editSetView (host : Host F) (self : Session F) : Option (Session F) := do
  let self ← startPitch host { self with mouse := .mixed }
  startYaw host self

/-! ## Drags -/

/-- `IsDragging`. (drag_editing.cpp:63-67) -/
def isDragging (env : HostEnv) (self : Session F) : Bool :=
  decide (self.drag.dragType ≠ .none) && self.inFreecam env &&
    decide (self.drag.blockIndex < self.blocks.length)

/-- The name the drags edit. -/
def strafeYaw : Str := str "tas_strafe_yaw"

/-- Replace the script being played. -/
def withScript (self : Session F) (script : TASScript F) : Session F :=
  { self with playback := { self.playback with currentScript := script } }

/-- `Drag_Confirm`; reading the convar through `operator[]` adds it when it is missing.
(drag_editing.cpp:21-33) -/
def dragConfirm [BEq F] (host : Host F) (self : Session F) : Option (Session F) := do
  let zero := host.ofInt 0
  let block ← self.blocks[self.drag.blockIndex]?
  let yaw := (block.convars.find? strafeYaw).getD zero
  let self := self.modifyBlock self.drag.blockIndex fun b =>
    { b with convars := b.convars.touch strafeYaw zero }
  let self :=
    if yaw == self.drag.originalStrafeyaw then
      self.modifyBlock self.drag.blockIndex fun b => { b with convars := b.convars.erase strafeYaw }
    else self
  some { self with drag := { self.drag with dragType := .none } }

/-- The frames that `Drag_Cancel` moves back. (drag_editing.cpp:40-48) -/
def dragCancelFrames (self : Session F) : Option (TASScript F) := do
  let script := self.playback.currentScript
  let block ← script.blocks[self.drag.blockIndex]?
  match self.drag.dragType with
  | .none => some script
  | .single =>
    some (script.modifyBlock self.drag.blockIndex fun b => { b with frame := self.drag.originalFrame })
  | .stack =>
    some (script.shiftBlocks self.drag.blockIndex (self.drag.originalFrame - block.frame)).1

/-- `Drag_Cancel`. (drag_editing.cpp:35-61) -/
def dragCancel (env : HostEnv) (self : Session F) : Option (Session F) := do
  let script ← (touchEdited env self).dragCancelFrames
  let frame := self.drag.originalFrame
  let script :=
    if self.drag.originalHadStrafeYaw then script.addCvar strafeYaw self.drag.originalStrafeyaw frame
    else script.removeCvarsFromRange strafeYaw frame frame
  let self := (touchEdited env self).withScript script
  some { self with drag := { self.drag with dragType := .none } }

/-- The change of the accumulators per mouse movement, `mousex * m_yaw.value *
sensitivity.value` and `mousey * m_pitch.value * sensitivity.value`, is given. -/
structure MouseMove where
  yaw : ℚ
  pitch : ℚ

/-- `PITCH_SENS`. -/
def pitchSens : ℚ := 20

/-- `(int)(accum_pitch / PITCH_SENS)`: the conversion truncates towards zero. -/
def pitchTicks (accum : ℚ) : Int := (accum / pitchSens).num.tdiv (accum / pitchSens).den

/-- The script with the dragged blocks moved. (drag_editing.cpp:98-105) -/
def dragFrames (self : Session F) (ticks : Int) : TASScript F :=
  let script := self.playback.currentScript
  match self.drag.dragType with
  | .none => script
  | .single => script.shiftSingleBlock self.drag.blockIndex ticks
  | .stack => (script.shiftBlocks self.drag.blockIndex ticks).1

/-- The `pitchTicks` part of the hook. (drag_editing.cpp:96-108) -/
def dragPitch (self : Session F) (ticks : Int) : Session F :=
  if ticks ≠ 0 then
    let dragged := self.withScript (self.dragFrames ticks)
    { dragged with
      drag := { dragged.drag with accumPitch := dragged.drag.accumPitch - ticks * pitchSens } }
  else self

/-- The `accum_yaw` part of the hook. (drag_editing.cpp:110-116) -/
def dragYaw (host : Host F) (self : Session F) : Session F :=
  if self.drag.accumYaw ≠ 0 then
    let accum := self.drag.accumYaw
    let dragged := self.modifyBlock self.drag.blockIndex fun b =>
      let yaw := host.turn ((b.convars.find? strafeYaw).getD (host.ofInt 0)) accum
      { b with convars := b.convars.put strafeYaw yaw }
    { dragged with drag := { dragged.drag with accumYaw := 0 } }
  else self

/-- The accumulators after a movement of the mouse. (drag_editing.cpp:88-89) -/
def Drag.accumulate (self : Drag F) (move : MouseMove) : Drag F :=
  { self with accumPitch := self.accumPitch - move.pitch, accumYaw := self.accumYaw - move.yaw }

/-- `Drag_MouseMove_Hook`. (drag_editing.cpp:81-122) -/
def dragMouseMove (host : Host F) (env : HostEnv) (self : Session F) (move : MouseMove) :
    Session F :=
  if !self.isDragging env then self
  else
    let drag := Drag.accumulate self.drag move
    let ticks := pitchTicks drag.accumPitch
    let moved := dragYaw host (dragPitch { self with drag := drag } ticks)
    if ticks ≠ 0 ∨ drag.accumYaw ≠ 0 then touchEdited env moved else moved

/-- `SelectDragIndex`, for the index that the prediction line gave.  When the block sets no
yaw itself and some block does, the yaw found goes to `original_had_strafe_yaw`.
(drag_editing.cpp:130-180) -/
def selectDragIndex (host : Host F) (self : Session F) (index : ℕ) : Option (Session F) := do
  let block ← self.blocks[index]?
  let drag := { self.drag with blockIndex := index, originalFrame := block.frame }
  let stacked := self.blocks.foldl FrameBlock.stack ({} : FrameBlock F)
  let drag :=
    match block.convars.find? strafeYaw with
    | some yaw => { drag with originalHadStrafeYaw := true, originalStrafeyaw := yaw }
    | none =>
      match stacked.convars.find? strafeYaw with
      | some yaw => { drag with originalHadStrafeYaw := host.toBool yaw }
      | none => { drag with originalHadStrafeYaw := false, originalStrafeyaw := host.ofInt 0 }
  some { self with drag := drag }

/-- `CMD_TAS_Drag_Single` and `CMD_TAS_Drag_Stack`; `index` is the answer of
`FindFrameBlock`, if there is one. (drag_editing.cpp:182-213) -/
def dragStart (host : Host F) (env : HostEnv) (self : Session F) (dragType : DragType)
    (index : Option ℕ) : Option (Session F) :=
  if !self.inFreecam env then some self
  else
    match index with
    | none => some self
    | some i => do
      let self ← selectDragIndex host self i
      some { self with drag := { self.drag with dragType := dragType } }

/-! ## Editing commands -/

/-- A command of `PlaybackInfo` that may be refused. -/
def applyEdit {ε : Type} (self : Session F) (r : Except ε (PlaybackInfo F)) : Session F :=
  match r with
  | .ok playback => { self with playback := playback }
  | .error _ => self

/-- `Cmd_TAS_Edit_Shift`, with `Generic_Advance` after an accepted shift.
(tas/script_playback.cpp:892-927) -/
def editShift (host : Host F) (env : HostEnv) (self : Session F) (frames : Int) : Session F :=
  match self.playback.editShift env.now frames with
  | .ok (playback, newFrame) => genericAdvance host env { self with playback := playback } newFrame
  | .error _ => self

/-- `Cmd_TAS_Edit_Prune`. (tas/script_playback.cpp:682-694) -/
def editPrune (self : Session F) (range : Option (Int × Int)) : Session F :=
  match range with
  | some (minFrame, maxFrame) => self.withScript (self.playback.currentScript.prune minFrame maxFrame)
  | none => self.withScript (self.playback.currentScript.pruneFrom lowestFrame)

/-- `Cmd_TAS_Edit_Add_Empty`. (tas/script_playback.cpp:977-980) -/
def editAddEmpty (self : Session F) : Session F :=
  match self.playback.getBlockForFrame (-1) with
  | some (playback, _) => { self with playback := playback }
  | none => self

/-- `Cmd_TAS_Edit_Remove_Shot`. (tas/script_playback.cpp:763-780) -/
def editRemoveShot (env : HostEnv) (self : Session F) (frames : Int) : Session F :=
  if frames ≤ 0 then self
  else
    touchEdited env
      (self.withScript (self.playback.currentScript.removeShot self.playback.currentFrame frames))

/-- The interval of `Cmd_TAS_Edit_Shots`, from two or three arguments.
(tas/script_playback.cpp:992-1007) -/
inductive ShotInterval where
  | frames (count : Int)
  | range (minFrame maxFrame : Int)

/-- `min` and `max` of `Cmd_TAS_Edit_Shots`. -/
def ShotInterval.bounds (currentFrame : Int) : ShotInterval → Int × Int
  | .frames count => (currentFrame - count, currentFrame - 1)
  | .range minFrame maxFrame => (minFrame, maxFrame)

/-- The loop of `Cmd_TAS_Edit_Shots` over the frames drawn. (tas/script_playback.cpp:1031-1036) -/
def setShots (env : HostEnv) (self : Session F) (frames : List Int) : Option (Session F) :=
  frames.foldlM
    (fun s frame => do
      let s ← setToggle env s (str "attack") true frame
      setToggle env s (str "attack") false (frame + 1))
    self

/-- The removal of a toggle and of the blocks left blank that `Cmd_TAS_Edit_Shots` and
`Cmd_TAS_Edit_Random_Toggle` start with. -/
def clearToggle (self : Session F) (cmd : Str) (minFrame maxFrame : Int) : Session F :=
  self.withScript
    ((self.playback.currentScript.removeTogglesFromRange cmd minFrame maxFrame).prune minFrame maxFrame)

/-- `Cmd_TAS_Edit_Shots`. (tas/script_playback.cpp:982-1042) -/
def editShots (env : HostEnv) (self : Session F) (count : Int) (interval : ShotInterval)
    (draws : Draws) : Option (Session F) :=
  if self.blocks.isEmpty then some self
  else
    let (minFrame, maxFrame) := interval.bounds self.playback.currentFrame
    if minFrame < 0 then some self
    else if maxFrame < minFrame then some self
    else
      match generateRandomIntegers count minFrame maxFrame env.weaponDelay draws with
      | .error _ => some self
      | .ok (integers, _) =>
        setShots env (self.clearToggle (str "attack") minFrame maxFrame) integers

/-- `Cmd_TAS_Edit_Random_Toggle`. (tas/script_playback.cpp:1044-1084) -/
def editRandomToggle (env : HostEnv) (self : Session F) (toggle : Str) (minFrame maxFrame : Int)
    (draws : Draws) : Option (Session F) :=
  if self.blocks.isEmpty then some self
  else if minFrame < 0 then some self
  else if maxFrame < minFrame then some self
  else
    match generateRandomIntegers 1 minFrame maxFrame 1 draws with
    | .error _ => some self
    | .ok (integers, _) => do
      let frame ← integers.head?
      setToggle env (self.clearToggle toggle minFrame maxFrame) toggle true frame

/-- `Cmd_TAS_Confirm`. (tas/script_playback.cpp:1086-1115) -/
def confirm [BEq F] (host : Host F) (env : HostEnv) (self : Session F) : Option (Session F) :=
  if self.isDragging env then dragConfirm host self
  else
    match self.mouse with
    | .locked => some self
    | .shot =>
      some { runScript host env self self.playback.currentFrame true true with mouse := .locked }
    | _ => some { self with mouse := .locked }

/-- What `Cmd_TAS_Cancel` puts back in each mouse mode. (tas/script_playback.cpp:1125-1154) -/
def cancelMode [BEq F] (host : Host F) (env : HostEnv) (self : Session F) : Option (Session F) :=
  match self.mouse with
  | .locked => some self
  | .strafe =>
    setConvars host env self
      [(strafeYaw, self.currentStrafeyaw), (str "tas_strafe", host.ofInt self.currentStrafe)]
  | .swim =>
    setConvars host env self
      [(strafeYaw, self.currentStrafeyaw), (str "tas_strafe_pitch", self.currentStrafepitch),
        (str "tas_strafe", host.ofInt self.currentStrafe)]
  | .shot =>
    some (self.withScript (self.playback.currentScript.removeShot self.playback.currentFrame
      self.currentTurnframes))
  | .mixed =>
    setConvars host env self
      [(str "tas_view_yaw", self.currentYaw), (str "tas_view_pitch", self.currentPitch)]
  | .yaw => setConvars host env self [(str "tas_view_yaw", self.currentYaw)]
  | .pitch => setConvars host env self [(str "tas_view_pitch", self.currentPitch)]

/-- `Cmd_TAS_Cancel`. (tas/script_playback.cpp:1117-1158) -/
def cancel [BEq F] (host : Host F) (env : HostEnv) (self : Session F) : Option (Session F) :=
  if self.isDragging env then dragCancel env self
  else do
    let self ← cancelMode host env self
    some { self with mouse := .locked }

/-- A run of `RETURN_STACKED`: each convar is set to its stacked value. -/
def returnStacked [BEq F] (host : Host F) (env : HostEnv) (self : Session F) (names : List Str) :
    Option (Session F) :=
  names.foldlM (fun s name => setConvar host env s name (getStackedValue host s name) (-1)) self

/-- The convars that `Cmd_TAS_Revert` puts back in each mouse mode.
(tas/script_playback.cpp:1163-1188) -/
def revertedConvars : MouseState → List Str
  | .locked => []
  | .strafe => [strafeYaw, str "tas_strafe"]
  | .swim => [strafeYaw, str "tas_strafe_pitch", str "tas_strafe"]
  | .mixed => [str "tas_view_yaw", str "tas_view_pitch"]
  | .yaw => [str "tas_view_yaw"]
  | .pitch => [str "tas_view_pitch"]
  | .shot => []

/-- `Cmd_TAS_Revert`. (tas/script_playback.cpp:1160-1192) -/
def revert [BEq F] (host : Host F) (env : HostEnv) (self : Session F) : Option (Session F) := do
  let self ← returnStacked host env self (revertedConvars self.mouse)
  some { self with mouse := .locked }

/-! ## Console commands typed in edit mode -/

/-- `tolower` on a byte. -/
def toLower (c : UInt8) : UInt8 := if 65 ≤ c ∧ c ≤ 90 then c + 32 else c

/-- The `impulse` branch of the hook. (tas/script_playback.cpp:1235-1251) -/
def editImpulse (host : Host F) (env : HostEnv) (self : Session F) (arg : Str) :
    Option (Session F × Bool) := do
  let number := host.atoi arg
  if number < 1 ∨ 9 < number then some (self, false)
  else
    let (self, i, _) ← (touchEdited env self).blockForFrame (-1)
    let cmd := (str "impulse " ++ arg).take 255
    let self := self.modifyBlock i fun b => { b with commands := [cmd] }
    some (self, true)

/-- `Script_Playback_Cmd_ExecuteString_Hook`: the session and whether the command is used up;
`name` is `Cmd_Argv(0)` and `args` are the arguments after it.
(tas/script_playback.cpp:1194-1254) -/
def cmdExecuteStringHook [BEq F] (host : Host F) (env : HostEnv) (self : Session F) (name : Str)
    (args : List Str) : Option (Session F × Bool) :=
  if !self.inEditMode then some (self, false)
  else
    let lowercase := name.map toLower
    if env.freecam && host.isMovementCommand lowercase then some (self, true)
    else if host.isGameplayCvar lowercase then
      match args with
      | [] => some (self, false)
      | arg :: _ => do
        let self ← setConvar host env self lowercase (host.atof arg) (-1)
        some (self, true)
    else if host.isDownCmd lowercase then do
      let cmd := lowercase.drop 1
      let (self, oldValue) ← getExistingToggle self cmd
      let self ← setToggle env self cmd (!oldValue) (-1)
      some (self, true)
    else
      match args with
      | arg :: _ =>
        if (str "impulse").isPrefixOf lowercase then editImpulse host env self arg
        else some (self, false)
      | [] => some (self, false)

/-! ## Replacing the script -/

/-- `TAS_Script_Load`; `loaded` is the script that the loader leaves, also when it fails.
(tas/script_playback.cpp:472-484) -/
def scriptLoad (env : HostEnv) (self : Session F) (loaded : TASScript F) : Session F :=
  touchEdited env ((self.scriptUpdated 0).withScript loaded)

/-- `Cmd_TAS_Script_Load`. (tas/script_playback.cpp:530-548) -/
def cmdScriptLoad (env : HostEnv) (self : Session F) (loaded : TASScript F) (result : Bool) :
    Session F :=
  let self := self.scriptLoad env loaded
  if result then { self with playing := false, gameState := .unpaused } else self

/-- The script that `Cmd_TAS_Script_Init` writes; `version` is the default of
`tas_strafe_version`. (tas/script_playback.cpp:503-524) -/
def initialScript (fileName map version : Str) (difficulty : Int) : TASScript F :=
  { fileName := fileName
    blocks :=
      [{ frame := 1
         commands := [str "disconnect", str "tas_set_seed", str "tas_strafe_version " ++ version] },
        { frame := 2
          commands := [str "skill " ++ decimalInt difficulty, str "record demo " ++ map] },
        { frame := 8 }] }

/-- `Cmd_TAS_Script_Init`. (tas/script_playback.cpp:492-528) -/
def scriptInit (self : Session F) (fileName map version : Str) (difficulty : Int) : Session F :=
  (self.withScript (initialScript fileName map version difficulty)).scriptUpdated 0

/-- `Cmd_TAS_Optimizer_Accept`, with the script that `GetOptimizedVersion` returns.
(tas/script_playback.cpp:550-565) -/
def optimizerAccept (env : HostEnv) (self : Session F) (optimized : TASScript F) : Session F :=
  if !self.inEditMode then self
  else
    let self :=
      if self.isDragging env then { self with drag := { self.drag with dragType := .none } }
      else self
    let script := self.playback.currentScript.addScript optimized self.playback.currentFrame
    (touchEdited env (self.withScript script)).scriptUpdated self.playback.currentFrame

/-! ## The frame hook -/

/-- `Cmd_TAS_Savestate`. (savestate.cpp:153-156) -/
def cmdSavestate (env : HostEnv) (self : Session F) : Session F :=
  { self with
    savestates := self.savestates.createSavestate (Savestates.canSavestate env self.playing)
      env.mapName self.blocks self.savestates.currentFrame true }

/-- The queue entry of a block that is played. -/
def queueEntry (host : Host F) (block : FrameBlock F) : AfterFrames :=
  { frames := 0, command := block.getCommand host.ostream, filter := noFilter }

/-- The blocks that the playing loop of the hook runs through: from the first block at or
after the current frame, as long as they are not after it. (tas/script_playback.cpp:424-428) -/
def blocksToPlay (self : Session F) : List (FrameBlock F) :=
  (self.blocks.drop (self.playback.getBlockNumber (-1))).takeWhile
    fun b => decide (b.frame ≤ self.playback.currentFrame)

/-- The playing loop and the step to the next frame. (tas/script_playback.cpp:424-438) -/
def playFrame (host : Host F) (self : Session F) : Session F :=
  { self with
    afterframes := self.afterframes ++ self.blocksToPlay.map (queueEntry host)
    playback :=
      { self.playback with
        stacked := self.blocksToPlay.foldl FrameBlock.stack self.playback.stacked
        currentFrame := self.playback.currentFrame + 1 } }

/-- The test for the pause frame, which is not made during a map load.
(tas/script_playback.cpp:415-416) -/
def pauseReached (env : HostEnv) (self : Session F) : Bool :=
  decide (self.playback.pauseFrame ≤ self.playback.currentFrame) && !env.changelevelIssued &&
    !env.scrDisabledForLoading && decide (env.clsState = .connected) && decide (signons ≤ env.signon)

/-- The part of the hook after the savestate hook and the mouse.
(tas/script_playback.cpp:404-438) -/
def playOrPause (host : Host F) (env : HostEnv) (self : Session F) : Session F :=
  let self :=
    if self.gameState = .paused ∧ self.playback.shouldUnpause then
      { self with
        gameState := .unpaused
        playback := { self.playback with shouldUnpause := false } }
    else self
  let self := if self.gameState = .unpaused then { self with mouse := .locked } else self
  if self.gameState = .paused ∨ !self.playback.scriptRunning then self
  else if self.pauseReached env then
    { self with
      gameState := .paused
      playback := { self.playback with scriptRunning := false }
      oldAngles := (self.viewPitch, self.viewYaw) }
  else playFrame host self

/-- `Savestate_Frame_Hook(playback.current_frame, playback.pause_frame)`. -/
def savestateFrameHook (env : HostEnv) (self : Session F) : Session F :=
  { self with
    savestates := self.savestates.frameHook env self.playing self.blocks
      self.playback.currentFrame self.playback.pauseFrame }

/-- The mouse part of the hook. (tas/script_playback.cpp:399-402) -/
def mouseHook [BEq F] (host : Host F) (env : HostEnv) (self : Session F) : Option (Session F) :=
  if self.inEditMode && decide (self.mouse ≠ .locked) then applyMouseStuff host env self
  else some self

/-- `Script_Playback_Host_Frame_Hook`. (tas/script_playback.cpp:383-438) -/
def hostFrameHook [BEq F] (host : Host F) (env : HostEnv) (self : Session F) :
    Option (Session F) :=
  if self.gameState = .loading then some self
  else if self.runQueued then
    some (runScript host env { self with runQueued := false } self.runFrame self.runSkip self.runSs)
  else do
    let self ← mouseHook host env (savestateFrameHook env self)
    some (playOrPause host env self)

end TASQuake.Session
