import TASQuake.Lib.Run
import TASQuake.Lib.Sweep
import TASQuake.Model.Session

/-!
# The queue of commands

tas/afterframes.cpp: console texts wait in a vector until they have counted down the frames on
which their filter matches, and `GetQueuedCommands` copies the texts of those that are due into
`CmdBuffer`.

* `frames` is an `int`; decrementing the smallest one is undefined in the source and wraps
  around here.
* A write behind the end of `CmdBuffer` is a step that does not return.
* `serial`, the number of an entry in the order in which the entries were added, and the list of the
  calls made so far are history variables.
* `Gonna_Jump` and the variables that only it reads are left out.
-/

namespace TASQuake

open Lib

/-! ## Filters -/

/-- `key_dest`. -/
inductive KeyDest where
  | game
  | console
  | message
  | menu
deriving DecidableEq

/-- What `GetCurrentFilter` reads. -/
structure FilterEnv where
  keyDest : KeyDest := .game
  /-- `cl.movemessages` -/
  movemessages : Int := 0
  /-- `tas_gamestate` -/
  gameState : GameState := .unpaused
deriving DecidableEq

/-- `Game`. -/
def gameFilter : ℕ := 1

/-- `Menu`. -/
def menuFilter : ℕ := 2

/-- `Loading`. -/
def loadingFilter : ℕ := 8

namespace FilterEnv

/-- `GetCurrentFilter`. (afterframes.cpp:17-34) -/
def getCurrentFilter (self : FilterEnv) : ℕ :=
  let filter := 0
  let filter :=
    if self.keyDest = .game ∧ 2 ≤ self.movemessages then filter ||| gameFilter else filter
  let filter := if self.keyDest = .menu then filter ||| menuFilter else filter
  let filter := if self.gameState = .unpaused then filter ||| unpausedFilter else filter
  if self.gameState = .loading then filter ||| loadingFilter else filter

/-- `FilterMatchesCurrentFrame`. (afterframes.cpp:36-41) -/
def filterMatchesCurrentFrame (self : FilterEnv) (filter : ℕ) : Bool :=
  filter == filter &&& self.getCurrentFilter

end FilterEnv

/-! ## Entries -/

/-- `AfterFrames::Active`. (afterframes.cpp:173-176) -/
def AfterFrames.active (env : FilterEnv) (self : AfterFrames) : Bool :=
  env.filterMatchesCurrentFrame self.filter

/-- `--frames` of an `int`. -/
def intPred (frames : Int) : Int := (frames - 1).bmod (2 ^ 32)

/-- An entry of the queue and its number. -/
structure QueueEntry extends AfterFrames where
  serial : ℕ
deriving DecidableEq

namespace QueueEntry

/-- What `AdvanceCommands` does to an entry. (afterframes.cpp:63-64) -/
def advance (env : FilterEnv) (self : QueueEntry) : QueueEntry :=
  if self.active env then { self with frames := intPred self.frames } else self

/-- The test of `GetQueuedCommands`. (afterframes.cpp:78) -/
def due (env : FilterEnv) (self : QueueEntry) : Bool :=
  decide (self.frames ≤ 0) && self.active env

end QueueEntry

/-! ## `CmdBuffer` -/

/-- `BUFFER_SIZE`. -/
def bufferSize : ℕ := 8192

/-- `CmdBuffer[bufferIndex++] = c`. -/
def putByte (buffer : Str) (c : UInt8) : Option Str :=
  if buffer.length < bufferSize then some (buffer ++ [c]) else none

/-- `CopyToBuffer`. (afterframes.cpp:43-52) -/
def copyToBuffer (buffer : Str) (text : Str) : Option Str :=
  (text ++ str ";").foldlM putByte buffer

/-! ## The queue -/

/-- The static variables of afterframes.cpp. -/
structure CommandQueue where
  afterframesQueue : List QueueEntry := []
  afterFramesPaused : Bool := false
  /-- the number of entries added so far -/
  added : ℕ := 0
deriving DecidableEq

/-- What a call of `GetQueuedCommands` does. -/
structure Drained where
  queue : CommandQueue
  /-- the entries copied, in the order of the copies -/
  emitted : List QueueEntry
  /-- the text returned; `none` is `NULL` -/
  text : Option Str

namespace CommandQueue

/-- `AddAfterframes`. (afterframes.cpp:54-57) -/
def addAfterframes (self : CommandQueue) (frames : Int) (cmd : Str) (filter : ℕ) : CommandQueue :=
  { self with
    afterframesQueue := self.afterframesQueue ++
      [{ frames := frames, command := cmd, filter := filter, serial := self.added }]
    added := self.added + 1 }

/-- `AdvanceCommands`. (afterframes.cpp:59-67) -/
def advanceCommands (env : FilterEnv) (self : CommandQueue) : CommandQueue :=
  { self with afterframesQueue := self.afterframesQueue.map (QueueEntry.advance env) }

/-- The text behind `CmdBuffer` once the entries are copied. (afterframes.cpp:90-97) -/
def finishBuffer (buffer : Str) : Option (Option Str) :=
  if buffer.isEmpty then some none else (putByte buffer 0).map fun _ => some buffer

/-- `GetQueuedCommands`. (afterframes.cpp:69-98) -/
def getQueuedCommands (env : FilterEnv) (self : CommandQueue) : Option Drained :=
  if self.afterFramesPaused then some ⟨self, [], none⟩
  else
    let self := self.advanceCommands env
    let (left, emitted) :=
      sweepBack (QueueEntry.due env) self.afterframesQueue.length self.afterframesQueue
    (emitted.foldlM (fun buffer entry => copyToBuffer buffer entry.command) []).bind fun buffer =>
      (finishBuffer buffer).map fun text => ⟨{ self with afterframesQueue := left }, emitted, text⟩

/-- `PauseAfterframes`. (afterframes.cpp:100-103) -/
def pauseAfterframes (self : CommandQueue) : CommandQueue := { self with afterFramesPaused := true }

/-- `UnpauseAfterframes`. (afterframes.cpp:105-108) -/
def unpauseAfterframes (self : CommandQueue) : CommandQueue :=
  { self with afterFramesPaused := false }

/-- `ClearAfterframes`. (afterframes.cpp:110-114) -/
def clearAfterframes (self : CommandQueue) : CommandQueue := { self with afterframesQueue := [] }

end CommandQueue

/-! ## Runs -/

/-- What is done to the queue.  The filter may have changed at every call of
`GetQueuedCommands`. -/
inductive QueueOp where
  | add (frames : Int) (cmd : Str) (filter : ℕ)
  | getQueuedCommands (env : FilterEnv)
  | pause
  | unpause
  | clear
deriving DecidableEq

/-- A call of `GetQueuedCommands` that was made. -/
structure Call where
  before : CommandQueue
  env : FilterEnv
  result : Drained

/-- The queue and the calls made so far. -/
structure QueueRun where
  queue : CommandQueue := {}
  calls : List Call := []

namespace QueueRun

/-- One operation. -/
def step (self : QueueRun) : QueueOp → Option QueueRun
  | .add frames cmd filter => some { self with queue := self.queue.addAfterframes frames cmd filter }
  | .getQueuedCommands env =>
    (self.queue.getQueuedCommands env).map fun result =>
      { queue := result.queue, calls := self.calls ++ [⟨self.queue, env, result⟩] }
  | .pause => some { self with queue := self.queue.pauseAfterframes }
  | .unpause => some { self with queue := self.queue.unpauseAfterframes }
  | .clear => some { self with queue := self.queue.clearAfterframes }

end QueueRun

/-!
## The command buffer of the console

`cmd_text` and the functions of cmd.c that fill and empty it, with the hook of every frame that adds
the queued commands to it (tas/hooks.cpp:401-405).

`none` is a step that does not return: a write behind the end of `CmdBuffer` or `line`, or the
`Sys_Error` of `SZ_GetSpace`.  What the commands themselves do to the buffer is a step of its own:
an alias, a file that is executed and the arguments of the program are inserted, other text is
added. `lost`, the queued texts that `Cbuf_AddText` has dropped, is a history variable.
-/

/-- `cmd_text.maxsize`. (cmd.c:69-72) -/
def cmdTextSize : ℕ := 8192

/-- The size of `line` in `Cbuf_Execute`. -/
def lineSize : ℕ := 1024

/-! ## `cmd_text` -/

/-- `SZ_Write` on `cmd_text`. (common.c:598-624) -/
def szWrite (buffer data : Str) : Option Str :=
  if cmdTextSize < buffer.length + data.length then none else some (buffer ++ data)

/-- `Cbuf_AddText`, and whether it has added the text. (cmd.c:81-94) -/
def cbufAddText (buffer text : Str) : Option (Str × Bool) :=
  if cmdTextSize ≤ buffer.length + text.length then some (buffer, false)
  else (szWrite buffer text).map fun buffer => (buffer, true)

/-- `Cbuf_InsertText`. (cmd.c:105-127) -/
def cbufInsertText (buffer text : Str) : Option Str :=
  (cbufAddText [] text).bind fun (added, _) =>
    if buffer.isEmpty then some added else szWrite added buffer

/-- The index of the line break that `Cbuf_Execute` finds, with the number of quotes before.
(cmd.c:145-154) -/
def lineBreak : ℕ → Str → ℕ
  | _, [] => 0
  | quotes, c :: text =>
    let quotes := if c = 34 then quotes + 1 else quotes
    if quotes % 2 = 0 ∧ c = 59 then 0
    else if c = 10 then 0
    else lineBreak quotes text + 1

/-- One round of the loop of `Cbuf_Execute`: the line it copies and the text left.
(cmd.c:139-172) -/
def cbufExecuteLine (buffer : Str) : Option (Str × Str) :=
  let i := lineBreak 0 buffer
  if i < lineSize then some (buffer.take i, buffer.drop (i + 1)) else none

/-! ## Steps -/

/-- The queue and the command buffer. -/
structure Console where
  queue : CommandQueue := {}
  cmdText : Str := []
  lost : List Str := []

/-- What happens to the queue and the command buffer. -/
inductive ConsoleAction where
  | addAfterframes (frames : Int) (cmd : Str) (filter : ℕ)
  | pauseAfterframes
  | unpauseAfterframes
  | clearAfterframes
  /-- the end of `_Host_Frame_After_FilterTime_Hook` -/
  | frame (env : FilterEnv)
  | addText (text : Str)
  | insertText (text : Str)
  /-- a round of `Cbuf_Execute`, if there is text -/
  | executeLine
deriving DecidableEq

namespace Console

/-- The queued commands are added to the command buffer. (hooks.cpp:401-405) -/
def frame (env : FilterEnv) (self : Console) : Option Console :=
  (self.queue.getQueuedCommands env).bind fun drained =>
    match drained.text with
    | none => some { self with queue := drained.queue }
    | some queued =>
      (cbufAddText self.cmdText queued).map fun (cmdText, added) =>
        { queue := drained.queue
          cmdText := cmdText
          lost := if added then self.lost else self.lost ++ [queued] }

/-- One step. -/
def step (self : Console) : ConsoleAction → Option Console
  | .addAfterframes frames cmd filter =>
    some { self with queue := self.queue.addAfterframes frames cmd filter }
  | .pauseAfterframes => some { self with queue := self.queue.pauseAfterframes }
  | .unpauseAfterframes => some { self with queue := self.queue.unpauseAfterframes }
  | .clearAfterframes => some { self with queue := self.queue.clearAfterframes }
  | .frame env => self.frame env
  | .addText text =>
    (cbufAddText self.cmdText text).map fun (cmdText, _) => { self with cmdText := cmdText }
  | .insertText text =>
    (cbufInsertText self.cmdText text).map fun cmdText => { self with cmdText := cmdText }
  | .executeLine =>
    if self.cmdText.isEmpty then some self
    else (cbufExecuteLine self.cmdText).map fun (_, cmdText) => { self with cmdText := cmdText }

end Console

end TASQuake
