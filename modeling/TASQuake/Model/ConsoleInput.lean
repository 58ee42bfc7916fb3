import TASQuake.Lib.Run
import TASQuake.Model.ScriptText

/-!
# Reading lines from the console

`tasquake_stdin_read` and `tasquake_stdin_init` (console_input.c:8-64).

What `select` and `read` come to is an argument, and the strings that are passed to the callback are
collected.  Memory that `malloc` and `realloc` add is zero here; it is not read before it is
written.  Allocation does not fail, and sizes do not leave the range of a `size_t`.
-/

namespace TASQuake

open Lib

/-- `stdin_input`. -/
structure StdinInput where
  /-- the memory at `buffer` -/
  buffer : Str
  bufferSize : ℕ
  inputIndex : ℕ
deriving DecidableEq

/-- What a call finds: `select` fails, the descriptor is not in the set, or `read` returns bytes;
no bytes stand for the end of the input and for an error. -/
inductive StdinEvent where
  | selectFailed
  | notSet
  | data (bytes : Str)
deriving DecidableEq

namespace StdinInput

/-- `tasquake_stdin_init`. (console_input.c:54-60) -/
def init : StdinInput := ⟨List.replicate 4096 0, 4096, 0⟩

/-- `bytes_left` before `read`. -/
def bytesLeft (self : StdinInput) : ℕ := self.bufferSize - self.inputIndex

/-- A full buffer is doubled. (console_input.c:15-21) -/
def grow (self : StdinInput) : StdinInput :=
  if self.bytesLeft = 0 then
    { self with
      buffer := self.buffer ++ List.replicate (self.bufferSize * 2 - self.buffer.length) 0
      bufferSize := self.bufferSize * 2 }
  else self

/-- The variables of the loop: `i`, and the strings that the callback has got. -/
structure Scan where
  input : StdinInput
  i : ℕ
  lines : List Str

/-- The condition of the loop. -/
def Scan.goesOn (self : Scan) : Bool := decide (self.i < self.input.inputIndex)

/-- The body of the loop.  All of the rest but its last byte is moved to the front.
(console_input.c:36-51) -/
def Scan.body (self : Scan) : Option Scan :=
  if self.input.buffer.getD self.i 0 ≠ 10 then some { self with i := self.i + 1 }
  else
    let buffer := memcpy self.input.buffer self.i [0]
    let line := TASScript.cStr buffer
    let bytesLeft := self.input.inputIndex - self.i - 1
    let buffer :=
      if bytesLeft > 0 then memcpy buffer 0 (slice buffer (self.i + 1) (bytesLeft - 1)) else buffer
    some
      { input := { self.input with buffer := buffer, inputIndex := bytesLeft }
        i := 0
        lines := self.lines ++ [line] }

/-- `tasquake_stdin_read`: the buffer and the strings that the callback gets.  `read` does not
return more bytes than there is room for. (console_input.c:8-52) -/
def read (self : StdinInput) : StdinEvent → Option (StdinInput × List Str)
  | .selectFailed => some (self, [])
  | .notSet => some (self.grow, [])
  | .data bytes =>
    let self := self.grow
    if bytes = [] then some (self, [])
    else if self.bytesLeft < bytes.length then none
    else do
      let input : StdinInput :=
        { self with
          buffer := memcpy self.buffer self.inputIndex bytes
          inputIndex := self.inputIndex + bytes.length }
      let scan ← whileLoop Scan.goesOn Scan.body (bytes.length + 1) ⟨input, self.inputIndex, []⟩
      some (scan.input, scan.lines)

/-- A call, with the strings that the callback has got so far. -/
def step (state : StdinInput × List Str) (event : StdinEvent) : Option (StdinInput × List Str) :=
  (state.1.read event).map fun next => (next.1, state.2 ++ next.2)

/-- Repeated calls, from the beginning. -/
def calls (events : List StdinEvent) : Option (StdinInput × List Str) :=
  run step (init, []) events

end StdinInput

end TASQuake
