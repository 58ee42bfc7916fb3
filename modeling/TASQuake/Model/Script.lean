import TASQuake.Lib.OrderedMap
import Mathlib.Data.List.InsertIdx

/-!
# Frame blocks and scripts

`FrameBlock` and `TASScript` of `libtasquake`, with the operations that read and edit a
script in memory (script_parse.cpp:85-126, 191-223, 470-773, insertion_order_map.hpp).

* A `std::string` is the list of its bytes (`Str`).
* Frames are mathematical integers.
* A convar value is an element of an arbitrary type `F`.  The code compares values with the
  `==` of `float`, which is not the equality of the stored bits, so the comparisons go
  through `BEq F` and no law is assumed of it.
* An index that the source passes to `operator[]` of a vector outside its bounds is
  undefined behaviour; the operations below leave the script alone there.
-/

namespace TASQuake

open Lib

/-- A `std::string`: its bytes. -/
abbrev Str := List UInt8

/-- The bytes of a string literal of the source. -/
def str (s : String) : Str := s.toList.map Char.toUInt8

/-! ## Frame blocks -/

/-- `FrameBlock`: the inputs that start on one frame. -/
structure FrameBlock (F : Type) where
  parsed : Bool := false
  frame : Int := 0
  convars : OrderedMap Str F := .empty
  toggles : OrderedMap Str Bool := .empty
  commands : List Str := []
deriving DecidableEq, Inhabited

namespace FrameBlock

variable {F : Type}

/-- `StackableCvar`: every convar but `skill` is carried over from frame to frame.
(script_parse.cpp:90-93) -/
def stackableCvar (name : Str) : Bool := decide (name ≠ str "skill")

/-- `FrameBlock::Stack`: write the toggles and the stackable convars of a block over this
one. (script_parse.cpp:95-104) -/
def stack (self newBlock : FrameBlock F) : FrameBlock F :=
  { self with
    toggles := self.toggles.putAll newBlock.toggles.values
    convars := self.convars.putAll
      (newBlock.convars.values.filter fun pair => stackableCvar pair.1) }

/-- `FrameBlock::Reset`: forget the contents; the frame number stays. (script_parse.cpp:191-197) -/
def reset (self : FrameBlock F) : FrameBlock F :=
  { self with parsed := false, convars := .empty, toggles := .empty, commands := [] }

/-- `FrameBlock::Add_Command`. (script_parse.cpp:128-131) -/
def addCommand (self : FrameBlock F) (line : Str) : FrameBlock F :=
  { self with commands := self.commands ++ [line] }

/-- `FrameBlock::GetCommand`: the console text of a block.  `ostream` is what
`operator<<(std::ostream&, float)` prints. (script_parse.cpp:106-126) -/
def getCommand (ostream : F → Str) (self : FrameBlock F) : Str :=
  (self.convars.values.flatMap fun convar => convar.1 ++ str " " ++ ostream convar.2 ++ str ";") ++
  (self.toggles.values.flatMap fun toggle =>
    (if toggle.2 then str "+" else str "-") ++ toggle.1 ++ str ";") ++
  (self.commands.flatMap fun cmd => cmd ++ str ";")

/-- `FrameBlock::HasToggle`. (script_parse.cpp:215-218) -/
def hasToggle (self : FrameBlock F) (cmd : Str) : Bool := self.toggles.contains cmd

/-- `FrameBlock::HasConvar`. (script_parse.cpp:220-223) -/
def hasConvar (self : FrameBlock F) (cvar : Str) : Bool := self.convars.contains cvar

/-- `FrameBlock::HasToggleValue`. (script_parse.cpp:199-205) -/
def hasToggleValue (self : FrameBlock F) (cmd : Str) (value : Bool) : Bool :=
  match self.toggles.find? cmd with
  | some v => v == value
  | none => false

/-- `FrameBlock::HasCvarValue`. (script_parse.cpp:207-213) -/
def hasCvarValue [BEq F] (self : FrameBlock F) (cmd : Str) (value : F) : Bool :=
  match self.convars.find? cmd with
  | some v => v == value
  | none => false

/-- The test the editing operations make before they drop or keep a block:
`convars.empty() && commands.empty() && toggles.empty()`. -/
def isBlank (self : FrameBlock F) : Bool :=
  self.convars.isEmpty && self.commands.isEmpty && self.toggles.isEmpty

theorem isBlank_iff (self : FrameBlock F) :
    self.isBlank = true ↔ self.convars = .empty ∧ self.commands = [] ∧ self.toggles = .empty := by
  simp [isBlank, OrderedMap.isEmpty_iff, and_assoc]

/-- Move a block by a number of frames. -/
def shiftFrame (delta : Int) (self : FrameBlock F) : FrameBlock F :=
  { self with frame := self.frame + delta }

end FrameBlock

/-! ## Scripts -/

/-- `TASScript`: a file name and the blocks in vector order. -/
structure TASScript (F : Type) where
  fileName : Str := []
  blocks : List (FrameBlock F) := []
deriving DecidableEq, Inhabited

namespace TASScript

variable {F : Type}

/-- The window shared by `Prune`, `RemoveCvarsFromRange` and `RemoveTogglesFromRange`. -/
def inRange (minFrame maxFrame : Int) (block : FrameBlock F) : Bool :=
  decide (minFrame ≤ block.frame) && decide (block.frame ≤ maxFrame)

/-- `TASScript::Prune(min_frame, max_frame)`. (script_parse.cpp:470-477) -/
def prune (self : TASScript F) (minFrame maxFrame : Int) : TASScript F :=
  { self with blocks := self.blocks.filter fun b => !(b.isBlank && inRange minFrame maxFrame b) }

/-- `TASScript::Prune(min_frame)`. (script_parse.cpp:479-486) -/
def pruneFrom (self : TASScript F) (minFrame : Int) : TASScript F :=
  { self with blocks := self.blocks.filter fun b => !(b.isBlank && decide (minFrame ≤ b.frame)) }

/-- `TASScript::RemoveBlocksAfterFrame`. (script_parse.cpp:489-494) -/
def removeBlocksAfterFrame (self : TASScript F) (frame : Int) : TASScript F :=
  { self with blocks := self.blocks.filter fun b => !decide (frame < b.frame) }

/-- `TASScript::RemoveCvarsFromRange`. (script_parse.cpp:496-504) -/
def removeCvarsFromRange (self : TASScript F) (name : Str) (minFrame maxFrame : Int) :
    TASScript F :=
  { self with blocks := self.blocks.map fun b =>
      if inRange minFrame maxFrame b then { b with convars := b.convars.erase name } else b }

/-- `TASScript::RemoveTogglesFromRange`. (script_parse.cpp:506-514) -/
def removeTogglesFromRange (self : TASScript F) (name : Str) (minFrame maxFrame : Int) :
    TASScript F :=
  { self with blocks := self.blocks.map fun b =>
      if inRange minFrame maxFrame b then { b with toggles := b.toggles.erase name } else b }

/-- `TASScript::AddScript`: keep the blocks before `frame` (up to the first one at or after
it) and append the blocks of `script`, moved to `frame`, that are not blank.  The local
`stacked` block of the source is written and never read. (script_parse.cpp:516-541) -/
def addScript (self script : TASScript F) (frame : Int) : TASScript F :=
  { self with blocks := self.blocks.takeWhile (fun b => decide (b.frame < frame)) ++
      (script.blocks.map (FrameBlock.shiftFrame frame)).filter fun b => !b.isBlank }

/-- `TASScript::GetBlockIndex`: the first block at or after `frame`, or the number of
blocks. (script_parse.cpp:543-560) -/
def getBlockIndex (self : TASScript F) (frame : Int) : ℕ :=
  self.blocks.findIdx fun b => decide (frame ≤ b.frame)

/-- The frame of a block. -/
def frameAt (self : TASScript F) (i : ℕ) : Int := ((self.blocks[i]?).map FrameBlock.frame).getD 0

/-- The loop of the binary search; `none` if it is not over after `fuel` rounds.
(script_parse.cpp:583-593) -/
def bisectLoop (self : TASScript F) (frame : Int) : ℕ → ℕ → ℕ → Option ℕ
  | 0, _, _ => none
  | fuel + 1, low, high =>
    if low < high - 1 then
      let mid := (low + high) / 2
      if self.frameAt mid = frame then some mid
      else if frame < self.frameAt mid then self.bisectLoop frame fuel low mid
      else self.bisectLoop frame fuel mid high
    else some low

/-- The branch of `GetBlockIndex` with the binary search, which is compiled out: the index and
`prev_block_number`. (script_parse.cpp:547-549, 571-602) -/
def getBlockIndexBinary (self : TASScript F) (prevBlockNumber frame : Int) : Option (ℕ × Int) :=
  let blockCount := self.blocks.length
  let prev := prevBlockNumber.toNat
  if blockCount = 0 then some (blockCount, prevBlockNumber)
  -- a negative number is large as a `size_t`
  else if 0 ≤ prevBlockNumber ∧ prev < blockCount ∧ frame ≤ self.frameAt prev ∧
      (prev = 0 ∨ self.frameAt (prev - 1) < frame) then some (prev, prevBlockNumber)
  else
    (self.bisectLoop frame blockCount 0 blockCount).map fun low =>
      let index := if self.frameAt low < frame then low + 1 else low
      (index, index)

/-- `TASScript::Get_Frameblock`: the first block at or after `frame`, if any.
(script_parse.cpp:706-718) -/
def getFrameblock (self : TASScript F) (frame : Int) : Option (FrameBlock F) :=
  self.blocks[self.getBlockIndex frame]?

/-- `GetBlockForInsertion`: the script in which `frame` has a block, and its index.  The
block inserted is default-constructed but for its frame. (script_parse.cpp:609-622) -/
def getBlockForInsertion (self : TASScript F) (frame : Int) : TASScript F × ℕ :=
  let blockIndex := self.getBlockIndex frame
  match self.blocks[blockIndex]? with
  | none => ({ self with blocks := self.blocks ++ [{ frame := frame }] }, blockIndex)
  | some b =>
    if frame < b.frame then
      ({ self with blocks := self.blocks.insertIdx blockIndex { frame := frame } }, blockIndex)
    else (self, blockIndex)

/-- `GetBlockForInsertion` finds a block on the frame, or inserts one before the first block
after it. -/
theorem getBlockForInsertion_cases (self : TASScript F) (frame : Int) :
    (∃ b, self.blocks[self.getBlockIndex frame]? = some b ∧ b.frame = frame ∧
      self.getBlockForInsertion frame = (self, self.getBlockIndex frame)) ∨
    ((∀ b, self.blocks[self.getBlockIndex frame]? = some b → frame < b.frame) ∧
      self.getBlockForInsertion frame =
        ({ self with
            blocks := self.blocks.insertIdx (self.getBlockIndex frame) { frame := frame } },
          self.getBlockIndex frame)) := by
  unfold getBlockForInsertion
  cases hb : self.blocks[self.getBlockIndex frame]? with
  | none =>
    right
    -- past the end the index is the length
    have hge : self.blocks.length ≤ self.getBlockIndex frame := List.getElem?_eq_none_iff.mp hb
    have hle : self.getBlockIndex frame ≤ self.blocks.length := List.findIdx_le_length
    have heq : self.getBlockIndex frame = self.blocks.length := Nat.le_antisymm hle hge
    refine ⟨fun b h => absurd h (by simp), ?_⟩
    simp only [hb]
    rw [heq, List.insertIdx_length_self]
  | some b =>
    simp only [hb]
    by_cases hlt : frame < b.frame
    · right
      rw [if_pos hlt]
      exact ⟨fun c hc => (Option.some.inj hc) ▸ hlt, rfl⟩
    · left
      obtain ⟨hi, hbi⟩ := List.getElem?_eq_some_iff.mp hb
      have hp := List.findIdx_getElem (w := hi)
      have hge : frame ≤ b.frame := by
        rw [← hbi]
        exact of_decide_eq_true hp
      exact ⟨b, rfl, by omega, by rw [if_neg hlt]⟩

/-- Rewrite the block at an index. -/
def modifyBlock (self : TASScript F) (index : ℕ) (f : FrameBlock F → FrameBlock F) :
    TASScript F :=
  { self with blocks := self.blocks.modify index f }

/-- Write a convar of a block. -/
def setConvarAt (self : TASScript F) (index : ℕ) (cmd : Str) (value : F) : TASScript F :=
  self.modifyBlock index fun b => { b with convars := b.convars.put cmd value }

/-- Write a toggle of a block. -/
def setToggleAt (self : TASScript F) (index : ℕ) (cmd : Str) (state : Bool) : TASScript F :=
  self.modifyBlock index fun b => { b with toggles := b.toggles.put cmd state }

/-- `TASScript::AddCvar`. (script_parse.cpp:624-628) -/
def addCvar (self : TASScript F) (cmd : Str) (value : F) (frame : Int) : TASScript F :=
  let (s, blockIndex) := self.getBlockForInsertion frame
  s.setConvarAt blockIndex cmd value

/-- `TASScript::AddToggle`. (script_parse.cpp:630-634) -/
def addToggle (self : TASScript F) (cmd : Str) (state : Bool) (frame : Int) : TASScript F :=
  let (s, blockIndex) := self.getBlockForInsertion frame
  s.setToggleAt blockIndex cmd state

/-- `TASScript::AddCommand`. (script_parse.cpp:636-640) -/
def addCommand (self : TASScript F) (cmd : Str) (frame : Int) : TASScript F :=
  let (s, blockIndex) := self.getBlockForInsertion frame
  s.modifyBlock blockIndex fun b => b.addCommand cmd

/-! ### Shots -/

/-- `CLEAR_RANGE` of `TASScript::AddShot`. -/
def clearRange : Int := 2

/-- The frame on which a shot is released, `std::max(8, frame)`. -/
def shootOffFrame (frame : Int) : Int := max 8 frame

/-- The frame on which a shot is pressed, `std::max(8, frame - 1)`. -/
def shootFrame (frame : Int) : Int := max 8 (frame - 1)

/-- The frame on which the view turns for a shot, `std::max(8, frame - turn_frames)`. -/
def turnFrame (frame turnFrames : Int) : Int := max 8 (frame - turnFrames)

/-- The `changeDetected` flag of `TASScript::AddShot`. (script_parse.cpp:649-669) -/
def shotChangeDetected [BEq F] (self : TASScript F) (pitch yaw : F) (frame turnFrames : Int) :
    Bool :=
  let turnFrameBlock := self.getFrameblock (turnFrame frame turnFrames)
  let shootFrameBlock := self.getFrameblock (shootFrame frame)
  let shootOffFrameBlock := self.getFrameblock (shootOffFrame frame)
  !(turnFrameBlock.any fun b =>
      b.hasCvarValue (str "tas_view_pitch") pitch && b.hasCvarValue (str "tas_view_yaw") yaw) ||
  !(shootFrameBlock.any fun b => b.hasToggleValue (str "attack") true) ||
  !(shootOffFrameBlock.any fun b => b.hasToggleValue (str "attack") false)

/-- The part of `TASScript::AddShot` that clears the window of the shot.
(script_parse.cpp:676-678) -/
def clearShotWindow (self : TASScript F) (frame turnFrames : Int) : TASScript F :=
  let turn := turnFrame frame turnFrames
  ((self.removeCvarsFromRange (str "tas_view_yaw") (turn - clearRange) (turn + clearRange)
    ).removeCvarsFromRange (str "tas_view_pitch") (turn - clearRange) (turn + clearRange)
    ).removeTogglesFromRange (str "attack") (shootFrame frame - clearRange)
      (shootOffFrame frame + clearRange)

/-- The part of `TASScript::AddShot` that inserts the three blocks, taking the three indices
before it writes to any of them. (script_parse.cpp:680-687) -/
def writeShot (self : TASScript F) (pitch yaw : F) (frame turnFrames : Int) : TASScript F :=
  let (s, turnIndex) := self.getBlockForInsertion (turnFrame frame turnFrames)
  let (s, shootIndex) := s.getBlockForInsertion (shootFrame frame)
  let (s, shootOffIndex) := s.getBlockForInsertion (shootOffFrame frame)
  (((s.setConvarAt turnIndex (str "tas_view_yaw") yaw
    ).setConvarAt turnIndex (str "tas_view_pitch") pitch
    ).setToggleAt shootIndex (str "attack") true
    ).setToggleAt shootOffIndex (str "attack") false

/-- `TASScript::AddShot`: the script after the call and whether it changed.
(script_parse.cpp:642-691) -/
def addShot [BEq F] (self : TASScript F) (pitch yaw : F) (frame turnFrames : Int) :
    TASScript F × Bool :=
  if self.shotChangeDetected pitch yaw frame turnFrames then
    let cleared := self.clearShotWindow frame turnFrames
    let written := cleared.writeShot pitch yaw frame turnFrames
    (written.prune (turnFrame frame turnFrames - clearRange) (shootOffFrame frame + clearRange),
      true)
  else (self, false)

/-- `TASScript::RemoveShot`. (script_parse.cpp:693-703) -/
def removeShot (self : TASScript F) (frame turnFrames : Int) : TASScript F :=
  let turn := turnFrame frame turnFrames
  (((self.removeCvarsFromRange (str "tas_view_yaw") turn turn
    ).removeCvarsFromRange (str "tas_view_pitch") turn turn
    ).removeTogglesFromRange (str "attack") (shootFrame frame) (shootOffFrame frame)
    ).prune turn (shootOffFrame frame)

/-! ### Moving blocks -/

/-- The frame below which a block cannot be moved: the frame of the block before it, or 0. -/
def minValue (self : TASScript F) (blockIndex : ℕ) : Int :=
  if blockIndex = 0 then 0 else ((self.blocks[blockIndex - 1]?).map FrameBlock.frame).getD 0

/-- `INT32_MAX`. -/
def int32Max : Int := 2147483647

/-- The `delta` that `TASScript::ShiftSingleBlock` applies after clamping it between the
neighbours of the block. (script_parse.cpp:722-742) -/
def singleShiftDelta (self : TASScript F) (blockIndex : ℕ) (block : FrameBlock F) (delta : Int) :
    Int :=
  if delta < 0 then max delta (self.minValue blockIndex - block.frame)
  else
    match self.blocks[blockIndex + 1]? with
    | none => min int32Max delta
    | some next => min (next.frame - block.frame) delta

/-- `TASScript::ShiftSingleBlock`. (script_parse.cpp:721-747) -/
def shiftSingleBlock (self : TASScript F) (blockIndex : ℕ) (delta : Int) : TASScript F :=
  match self.blocks[blockIndex]? with
  | none => self
  | some block =>
    self.modifyBlock blockIndex
      (FrameBlock.shiftFrame (self.singleShiftDelta blockIndex block delta))

/-- The `delta` that `TASScript::ShiftBlocks` applies after clamping. (script_parse.cpp:750-763) -/
def shiftDelta (self : TASScript F) (blockIndex : ℕ) (block : FrameBlock F) (delta : Int) : Int :=
  if delta < 0 then
    let minDelta := self.minValue blockIndex - block.frame
    if delta < minDelta then minDelta else delta
  else delta

/-- `TASScript::ShiftBlocks`: move a block and all blocks after it; the flag is the value
returned. (script_parse.cpp:749-773) -/
def shiftBlocks (self : TASScript F) (blockIndex : ℕ) (delta : Int) : TASScript F × Bool :=
  match self.blocks[blockIndex]? with
  | none => (self, false)
  | some block =>
    let delta := self.shiftDelta blockIndex block delta
    if delta = 0 then (self, false)
    else
      ({ self with blocks := self.blocks.take blockIndex ++
          (self.blocks.drop blockIndex).map (FrameBlock.shiftFrame delta) }, true)

end TASScript

/-!
## Playback information

`PlaybackInfo` of `libtasquake` (script_playback.hpp, script_playback.cpp): the script being
played, where playback stands in it, and the settings stacked up to there.

`Sys_DoubleTime()` only ever stamps `last_edited`; the stamps are natural numbers here.
-/

/-- `PlaybackInfo`. -/
structure PlaybackInfo (F : Type) where
  pauseFrame : Int := 0
  currentFrame : Int := 0
  scriptRunning : Bool := false
  shouldUnpause : Bool := false
  lastEdited : ℕ := 0
  stacked : FrameBlock F := {}
  currentScript : TASScript F := {}
deriving DecidableEq, Inhabited

/-- The three locals that the loop of `GetTimeShiftedVersion` updates. -/
structure TimeShift (F : Type) where
  stacked : FrameBlock F
  addedStack : Bool
  output : List (FrameBlock F)

namespace PlaybackInfo

variable {F : Type}

/-- The frame a call with the default argument `-1` is about.
(libtasquake/src/script_playback.cpp:29-30) -/
def frameOrCurrent (self : PlaybackInfo F) (frame : Int) : Int :=
  if frame = -1 then self.currentFrame else frame

/-- `PlaybackInfo::GetBlockNumber`. (libtasquake/src/script_playback.cpp:27-33) -/
def getBlockNumber (self : PlaybackInfo F) (frame : Int) : ℕ :=
  self.currentScript.getBlockIndex (self.frameOrCurrent frame)

/-- `PlaybackInfo::Get_Current_Block`. (libtasquake/src/script_playback.cpp:12-20) -/
def getCurrentBlock (self : PlaybackInfo F) (frame : Int) : Option (FrameBlock F) :=
  self.currentScript.blocks[self.getBlockNumber frame]?

/-- `PlaybackInfo::Get_Number_Of_Blocks`. (libtasquake/src/script_playback.cpp:35-38) -/
def getNumberOfBlocks (self : PlaybackInfo F) : ℕ := self.currentScript.blocks.length

/-- `PlaybackInfo::Get_Last_Frame`. (libtasquake/src/script_playback.cpp:40-48) -/
def getLastFrame (self : PlaybackInfo F) : Int :=
  match self.currentScript.blocks.getLast? with
  | none => 0
  | some block => block.frame

/-- `PlaybackInfo::In_Edit_Mode`; `gamePaused` is what the host answers to
`TASQuake::GamePaused()`. (libtasquake/src/script_playback.cpp:50-53) -/
def inEditMode (self : PlaybackInfo F) (gamePaused : Bool) : Bool :=
  !self.scriptRunning && gamePaused && !self.currentScript.blocks.isEmpty

/-- `PlaybackInfo::CalculateStack`: stack the blocks up to the first one at or after the
current frame. (libtasquake/src/script_playback.cpp:55-66) -/
def calculateStack (self : PlaybackInfo F) : PlaybackInfo F :=
  { self with
    stacked := (self.currentScript.blocks.takeWhile fun b => decide (b.frame < self.currentFrame)
      ).foldl FrameBlock.stack self.stacked.reset }

/-- The loop body of `GetTimeShiftedVersion`. (libtasquake/src/script_playback.cpp:83-98) -/
def timeShiftStep (startFrame : Int) (st : TimeShift F) (block : FrameBlock F) : TimeShift F :=
  if block.frame ≤ startFrame then
    let stacked := st.stacked.stack block
    { st with
      stacked := if block.frame = startFrame then { stacked with commands := block.commands }
        else stacked }
  else
    { st with
      addedStack := true
      output := (if st.addedStack then st.output else st.output ++ [st.stacked]) ++
        [block.shiftFrame (-startFrame)] }

/-- `PlaybackInfo::GetTimeShiftedVersion`: the script from `start_frame` on, with everything
before it folded into one block at frame 0. (libtasquake/src/script_playback.cpp:68-106) -/
def getTimeShiftedVersion (info : PlaybackInfo F) (startFrame : Int) : PlaybackInfo F :=
  let startFrame := info.frameOrCurrent startFrame
  let st := info.currentScript.blocks.foldl (timeShiftStep startFrame)
    { stacked := { frame := 0, parsed := true }, addedStack := false, output := [] }
  { currentScript :=
      { fileName := info.currentScript.fileName
        blocks := if st.addedStack then st.output else st.output ++ [st.stacked] } }

end PlaybackInfo

end TASQuake
