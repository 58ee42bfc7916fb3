import TASQuake.Lib.Pod
import TASQuake.Model.EdictText

/-!
# The edicts in a savestate

The part of a savestate that holds the globals and the edicts: the text of the globals up to its
closing brace, the number of edicts, for every edict in use its number and its text, and the number
-1.  Numbers are four bytes.

A read that fails leaves the bytes of its variable that it did not get.  `stale` and `staleIndex`
are what the variables `c` and `index` hold before they are first read.  The loop over the edicts is
given a number of rounds, and `none` says that it is not over after them.  The reader also notes the
number and the text of every edict it comes to; the program has no such variable.
-/

namespace TASQuake

open Lib

/-! ## Writing -/

/-- `Write` of an `int`. -/
def writeInt (i : Int) : Str := Pod.int32.toBytes i

/-- The loop of `WriteEnts`. -/
def writeEdicts (sv : Server) : List ℕ → Except Fault Str
  | [] => .ok []
  | i :: indices => do
    let n ← edictNum i
    if (sv.edicts n).free then writeEdicts sv indices
    else do
      let text ← edWrite sv (sv.edicts n).v
      let rest ← writeEdicts sv indices
      .ok (writeInt i ++ (text ++ rest))

/-- `WriteEnts`. (savestate.cpp:477-493) -/
def writeEnts (sv : Server) : Except Fault Str := do
  let edicts ← writeEdicts sv (List.range sv.numEdicts.toNat)
  .ok (writeInt sv.numEdicts ++ (edicts ++ writeInt (-1)))

/-! ## Streams -/

/-- A `std::ifstream`: what is left of the file, and `good()`. -/
structure InStream where
  bytes : Str
  good : Bool := true
deriving DecidableEq

namespace InStream

/-- `Read` of a `char`. -/
def readChar (self : InStream) (c : UInt8) : UInt8 × InStream :=
  match self.good, self.bytes with
  | true, c :: rest => (c, { self with bytes := rest })
  | _, _ => (c, { bytes := [], good := false })

/-- `Read` of an `int`. -/
def readInt (self : InStream) (i : Int) : Int × InStream :=
  if self.good && decide (4 ≤ self.bytes.length) then
    (Pod.int32.ofBytes (self.bytes.take 4), { self with bytes := self.bytes.drop 4 })
  else
    let got := if self.good then self.bytes else []
    (Pod.int32.ofBytes (got ++ (writeInt i).drop got.length), { bytes := [], good := false })

end InStream

/-- The size of `str`. (savestate.cpp:792) -/
def strSize : ℕ := 32768

/-- The loop of `GrabEntity`: the text with what is in `c` at the end, and the stream. -/
def grabLoop : UInt8 → Str → Str × InStream
  | c, [] => if c = 125 then ([c], { bytes := [] }) else ([c, c], { bytes := [], good := false })
  | c, next :: rest =>
    if c = 125 then ([c], { bytes := next :: rest })
    else
      let (text, stream) := grabLoop next rest
      (c :: text, stream)

/-- `GrabEntity`: the text that is put in `str`, and its NUL. (savestate.cpp:158-173) -/
def grabEntity (stale : UInt8) (stream : InStream) : Except Fault (Str × InStream) :=
  let (c, stream) := stream.readChar stale
  let (text, stream) := if stream.good then grabLoop c stream.bytes else ([c], stream)
  if text.length + 1 ≤ strSize then .ok (text, stream) else .error .undefined

/-! ## Reading -/

/-- What reading starts with, and what it does outside the stream. -/
structure Reader extends Engine where
  stale : UInt8
  staleIndex : Int
  /-- the edict with a number after `SV_LinkEdict` -/
  link : Server → ℕ → Edict

/-- The state of `ReadEnts`. -/
structure ReadState where
  sv : Server
  stream : InStream
  copies : List Str
  visited : List (ℕ × Str) := []

/-- Put an edict in its place. -/
def Server.setEdict (self : Server) (n : ℕ) (ent : Edict) : Server :=
  { self with edicts := Function.update self.edicts n ent }

/-- One round of the loop of `ReadEnts`, without reading the next index. -/
def readEdict (rd : Reader) (index : Int) (state : ReadState) : Except Fault ReadState := do
  let n ← edictNum index
  let ent : Edict := { state.sv.edicts n with v := fun _ => 0 }
  let (text, stream) ← grabEntity rd.stale state.stream
  let (ent, copies) ← ssEdParseEdict rd.toEngine state.sv state.copies text n ent
  let sv := state.sv.setEdict n { ent with free := false }
  .ok
    { sv := sv.setEdict n (rd.link sv n)
      stream := stream
      copies := copies
      visited := state.visited ++ [(n, text)] }

/-- The loop of `ReadEnts`. -/
def readLoop (rd : Reader) : ℕ → Int → ReadState → Option (Except Fault ReadState)
  | 0, _, _ => none
  | fuel + 1, index, state =>
    if index = -1 then some (.ok state)
    else
      match readEdict rd index state with
      | .error fault => some (.error fault)
      | .ok state =>
        let (index, stream) := state.stream.readInt index
        readLoop rd fuel index { state with stream := stream }

/-- `ReadEnts`. (savestate.cpp:496-523) -/
def readEnts (rd : Reader) (fuel : ℕ) (state : ReadState) : Option (Except Fault ReadState) :=
  let edicts := fun n : ℕ =>
    if (n : Int) < maxEdicts then { state.sv.edicts n with free := true } else state.sv.edicts n
  let (numEdicts, stream) := state.stream.readInt state.sv.numEdicts
  let (index, stream) := stream.readInt rd.staleIndex
  readLoop rd fuel index
    { state with sv := { state.sv with edicts := edicts, numEdicts := numEdicts }, stream := stream }

/-- The part of `Cmd_TAS_LS` that reads the globals and the edicts: the text of the globals and the
state at its end. (savestate.cpp:905-907) -/
def readServer (rd : Reader) (fuel : ℕ) (sv : Server) (stream : InStream) :
    Option (Except Fault (Str × ReadState)) :=
  match grabEntity rd.stale stream with
  | .error fault => some (.error fault)
  | .ok (text, stream) =>
    match ssEdParseGlobals rd.toEngine sv [] text with
    | .error fault => some (.error fault)
    | .ok base =>
      (readEnts rd fuel
        { sv := { sv with globals := base.v }, stream := stream, copies := base.copies }).map
        fun result => result.map fun state => (text, state)

end TASQuake
