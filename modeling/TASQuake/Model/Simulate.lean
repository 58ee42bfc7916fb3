import TASQuake.Model.Editing
import TASQuake.Model.Optimizer

/-!
# Simulating a frame

`Simulator::RunFrame` of simulate.cpp and `Optimizer::GetCurrentFrameBlock`: how the prediction
and the optimizer find the inputs of a frame.  What a frame does to the player is a parameter,
and so are the conversions between numbers.
-/

namespace TASQuake

/-- `KeyState`: the values 0, 0.5 and 1. -/
inductive KeyState
  | released
  | halfPressed
  | pressed
deriving DecidableEq

/-- The part of `StrafeVars` that a script sets. -/
structure StrafeVars (F R : Type) where
  viewYaw : F
  viewPitch : F
  strafe : Int
  strafeYaw : F
  strafePitch : F
  strafeType : Int
  anglespeed : F
  hostFrametime : R
  strafeVersion : Int

/-- `SimulationInfo`; `player` is the part that no input is written to. -/
structure SimulationInfo (F R P : Type) where
  player : P
  vars : StrafeVars F R
  hostFrametime : R
  lgagst : Bool
  jump : Bool
  forwardspeed : F
  sidespeed : F
  upspeed : F
  movespeedkey : F
  keyJump : KeyState
  keyUp : KeyState
  keyDown : KeyState
  keyForward : KeyState
  keyMoveleft : KeyState
  keyMoveright : KeyState
  keyBack : KeyState
  keySpeed : KeyState

/-- What the simulation is given. -/
structure SimOps (F R P : Type) where
  /-- `1.0 / value` -/
  reciprocal : F → R
  /-- conversion to `int` -/
  toInt : F → Int
  /-- `SimulateWithStrafePlusJump` -/
  simulateWithStrafePlusJump : SimulationInfo F R P → SimulationInfo F R P

variable {F R P : Type}

/-- `CHECK_INPUT`. (simulate.cpp:703-710) -/
def checkInput (block : FrameBlock F) (name : Str) (key : KeyState) : KeyState :=
  match block.toggles.find? name with
  | some true => if key = .released then .halfPressed else key
  | some false => .released
  | none => key

/-- `ApplyToggles`. (simulate.cpp:714-730) -/
def applyToggles (info : SimulationInfo F R P) (block : FrameBlock F) : SimulationInfo F R P :=
  { info with
    keyForward := checkInput block (str "forward") info.keyForward
    keyBack := checkInput block (str "back") info.keyBack
    keyMoveleft := checkInput block (str "moveleft") info.keyMoveleft
    keyMoveright := checkInput block (str "moveright") info.keyMoveright
    keyUp := checkInput block (str "moveup") info.keyUp
    keyDown := checkInput block (str "movedown") info.keyDown
    keySpeed := checkInput block (str "speed") info.keySpeed
    keyJump := checkInput block (str "jump") info.keyJump
    lgagst := (block.toggles.find? (str "tas_lgagst")).getD info.lgagst
    jump := (block.toggles.find? (str "tas_jump")).getD info.jump }

/-- `CHECK_CVAR`. (simulate.cpp:732-736) -/
def checkCvar {α : Type} (block : FrameBlock F) (name : Str) (convert : F → α) (value : α) : α :=
  ((block.convars.find? name).map convert).getD value

/-- `ApplyCvars`. (simulate.cpp:738-763) -/
def applyCvars (ops : SimOps F R P) (info : SimulationInfo F R P) (block : FrameBlock F) :
    SimulationInfo F R P :=
  let hostFrametime := checkCvar block (str "cl_maxfps") ops.reciprocal
  { info with
    forwardspeed := checkCvar block (str "cl_forwardspeed") id info.forwardspeed
    sidespeed := checkCvar block (str "cl_sidespeed") id info.sidespeed
    upspeed := checkCvar block (str "cl_upspeed") id info.upspeed
    movespeedkey := checkCvar block (str "cl_movespeedkey") id info.movespeedkey
    hostFrametime := hostFrametime info.hostFrametime
    vars :=
      { viewYaw := checkCvar block (str "tas_view_yaw") id info.vars.viewYaw
        viewPitch := checkCvar block (str "tas_view_pitch") id info.vars.viewPitch
        strafe := checkCvar block (str "tas_strafe") ops.toInt info.vars.strafe
        strafeYaw := checkCvar block (str "tas_strafe_yaw") id info.vars.strafeYaw
        strafePitch := checkCvar block (str "tas_strafe_pitch") id info.vars.strafePitch
        strafeVersion := checkCvar block (str "tas_strafe_version") ops.toInt info.vars.strafeVersion
        anglespeed := checkCvar block (str "tas_anglespeed") id info.vars.anglespeed
        hostFrametime := hostFrametime info.vars.hostFrametime
        strafeType := checkCvar block (str "tas_strafe_type") ops.toInt info.vars.strafeType } }

/-- `ApplyFrameblock`. (simulate.cpp:826-830) -/
def applyFrameblock (ops : SimOps F R P) (info : SimulationInfo F R P) (block : FrameBlock F) :
    SimulationInfo F R P :=
  applyCvars ops (applyToggles info block) block

/-- `Simulator`. -/
structure Simulator (F R P : Type) where
  info : SimulationInfo F R P
  playback : PlaybackInfo F
  frame : Int

namespace Simulator

/-- The block that `RunFrame` applies. (simulate.cpp:1046-1047) -/
def frameBlock? (self : Simulator F R P) : Option (FrameBlock F) :=
  (self.playback.getCurrentBlock self.frame).filter fun block => decide (block.frame = self.frame)

/-- `Simulator::RunFrame`; `connected` is `cls.state == ca_connected` and `predictEntity` is
`tas_predict_entity.value == 1`. (simulate.cpp:1041-1058) -/
def runFrame (ops : SimOps F R P) (connected predictEntity : Bool) (self : Simulator F R P) :
    Simulator F R P :=
  if !connected then self
  else
    let info :=
      match self.frameBlock? with
      | some block => applyFrameblock ops self.info block
      | none => self.info
    { self with
      info := if predictEntity then ops.simulateWithStrafePlusJump info else info
      frame := self.frame + 1 }

end Simulator

end TASQuake
