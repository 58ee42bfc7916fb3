import TASQuake.Lib.SortedMap
import TASQuake.Model.Script
import Mathlib.Data.Int.Order.Basic

/-!
# The savestate map

`savestateMap`, `save_number` and the functions that create, look up and drop savestates
(tas/savestate.cpp:9-156, 836-840).

`SS(savename)` writes the state of the game to the file `<prefix><number>`.  What it writes
is an opaque value here, the `snapshot` of the entry; the code itself never looks at it, and
the results choose it to say what the game had seen when the savestate was made.
-/

namespace TASQuake

open Lib

/-- `cls.state`. -/
inductive ClsState where
  | dedicated
  | disconnected
  | connected
deriving DecidableEq, Inhabited

/-- `SIGNONS`: the signon number of a client that is in the game (client.h). -/
def signons : ℕ := 4

/-- What the playback and savestate code reads of the rest of the engine during a frame. -/
structure HostEnv where
  clsState : ClsState
  signon : ℕ
  /-- `cl.intermission != 0` -/
  intermission : Bool
  /-- `cl.movemessages` -/
  movemessages : ℕ
  /-- `CL_MapName()` -/
  mapName : Str
  /-- `tas_savestate_enabled.value != 0` -/
  savestateEnabled : Bool
  /-- `tas_savestate_auto.value != 0` -/
  savestateAuto : Bool
  /-- `svs.changelevel_issued` -/
  changelevelIssued : Bool
  /-- `scr_disabled_for_loading` -/
  scrDisabledForLoading : Bool
  /-- `tas_freecam.value != 0` -/
  freecam : Bool
  /-- `tas_savestate_prefix.string` -/
  savestatePrefix : Str
  /-- `GetPlayerWeaponDelay()` -/
  weaponDelay : Int
  /-- `Sys_DoubleTime()` -/
  now : ℕ
deriving DecidableEq, Inhabited

/-- `struct Savestate`, with the contents of its file. -/
structure Savestate (γ : Type) where
  frame : Int
  number : ℕ
  map : Str
  snapshot : γ
deriving DecidableEq

/-- The static variables of savestate.cpp. -/
structure Savestates (γ : Type) where
  saveNumber : ℕ := 0
  currentFrame : Int := 0
  savestateMap : SortedMap Int (Savestate γ) := .empty
deriving DecidableEq, Inhabited

namespace Savestates

variable {γ : Type}

/-- `Can_Savestate`; `playing` is `tas_playing.value == 1`. (savestate.cpp:32-35) -/
def canSavestate (env : HostEnv) (playing : Bool) : Bool :=
  decide (env.clsState = .connected) && decide (env.signon = signons) && playing &&
    !env.intermission && env.savestateEnabled

/-- `Create_Savestate`, after `Can_Savestate` has answered `can`. (savestate.cpp:37-61) -/
def createSavestate (self : Savestates γ) (can : Bool) (mapName : Str) (snapshot : γ)
    (frame : Int) (force : Bool) : Savestates γ :=
  if !can then self
  else if !force && (self.savestateMap.find? frame).isSome then self
  else
    { self with
      savestateMap := self.savestateMap.put frame
        { frame := frame, number := self.saveNumber, map := mapName, snapshot := snapshot }
      saveNumber := self.saveNumber + 1 }

/-- `Savestate_Load_State`: the entry to load for a frame, `none` for the return value `-1`.
It is the exact match, or else the entry before `lower_bound(frame)`. (savestate.cpp:63-99) -/
def loadState (self : Savestates γ) (enabled : Bool) (frame : Int) : Option (Savestate γ) :=
  if self.savestateMap.entries.isEmpty || !enabled then none
  else
    match self.savestateMap.find? frame with
    | some elem => some elem
    | none =>
      ((self.savestateMap.entries.takeWhile fun e => decide (e.1 < frame)).getLast?).map Prod.snd

/-- `frequency` of savestate.cpp. -/
def frequency : Int := 100

/-- `Should_Savestate`. (savestate.cpp:101-121) -/
def shouldSavestate (self : Savestates γ) (env : HostEnv) (frame targetFrame : Int) : Bool :=
  let should :=
    if frame < 10 then false
    else if env.movemessages = 0 then true
    else decide (frame % frequency = 0) && decide (targetFrame - frame < 500) &&
      env.savestateAuto
  if !should then false
  else
    match self.savestateMap.entries.getLast? with
    | some e => !decide (env.mapName = e.2.map)
    | none => true

/-- `Savestate_Frame_Hook`. (savestate.cpp:123-129) -/
def frameHook (self : Savestates γ) (env : HostEnv) (playing : Bool) (snapshot : γ)
    (frame targetFrame : Int) : Savestates γ :=
  let self := { self with currentFrame := frame }
  if self.shouldSavestate env frame targetFrame then
    self.createSavestate (canSavestate env playing) env.mapName snapshot frame false
  else self

/-- `Savestate_Script_Updated`: drop the savestates above `frame` and restart the numbering
at the size of what is left. (savestate.cpp:131-146) -/
def scriptUpdated (self : Savestates γ) (frame : Int) : Savestates γ :=
  let kept := self.savestateMap.eraseAbove frame
  { self with savestateMap := kept, saveNumber := kept.size }

/-- `Cmd_TAS_SS_Clear`. (savestate.cpp:836-840) -/
def clear (self : Savestates γ) : Savestates γ :=
  { self with savestateMap := .empty, saveNumber := 0 }

/-- The live keys. -/
def keys (self : Savestates γ) : List Int := self.savestateMap.entries.map Prod.fst

end Savestates

end TASQuake
