import TASQuake.Lib.Decimal
import TASQuake.Lib.Text
import TASQuake.Model.Io
import TASQuake.Model.Script

/-!
# Scripts as text

Reading and writing a script (script_parse.cpp:13-189, 261-372): the lines of a text are
classified one by one and collected into blocks, and a script is written as a number of lines
per block.

`TextEnv` holds what is not part of the parser: the predicate `IsConvar` and the conversions
between floats and text.  The three regular expressions are matched by hand; in the `C` locale
`\d`, `\w` and `isspace` are about ASCII bytes only.
-/

namespace TASQuake

open Lib Io TASScript

/-- What the parser and the printer are given. -/
structure TextEnv (F : Type) where
  /-- `TASQuake::IsConvar` -/
  isConvar : Str → Bool
  /-- `TASQuake::FloatString` -/
  toChars : F → Str
  /-- `TASQuake::FloatFromString` -/
  fromChars : Str → F

/-- The C string that starts where a `std::string` does: up to the first null character. -/
def TASScript.cStr (s : Str) : Str := s.takeWhile fun c => c != 0

theorem TASScript.cStr_eq_self_iff (s : Str) : cStr s = s ↔ 0 ∉ s := by
  unfold cStr
  rw [List.takeWhile_eq_self_iff]
  constructor
  · intro h hmem
    exact absurd (h 0 hmem) (by decide)
  · intro h c hc
    simpa using ne_of_mem_of_not_mem hc h

/-! ## Classifying lines -/

/-- `isspace`, `iswspace` and the characters that `trim` removes. -/
def isSpaceByte (c : UInt8) : Bool := decide (9 ≤ c ∧ c ≤ 13) || c == 32

/-- `\w`. -/
def isWordByte (c : UInt8) : Bool :=
  isDigitByte c || decide (65 ≤ c ∧ c ≤ 90) || decide (97 ≤ c ∧ c ≤ 122) || c == 95

/-- `Parse_Newline`, on the line that has been read: the comment is removed and the line
trimmed. (script_parse.cpp:19-28) -/
def parseNewline (line : Str) : Str := trim isSpaceByte (cutAt 47 line)

/-- `Is_Whitespace`. (script_parse.cpp:80-83) -/
def isWhitespace (line : Str) : Bool := line.all isSpaceByte

/-- The two groups of `FRAME_NO_REGEX`, if a line matches it: whether there is a plus, and the
digits. (script_parse.cpp:13) -/
def frameNumber? (line : Str) : Option (Bool × Str) :=
  let plus := line.head? == some 43
  let rest := if plus then line.tail else line
  let digits := rest.takeWhile isDigitByte
  if digits ≠ [] ∧ rest.dropWhile isDigitByte = [58] then some (plus, digits) else none

/-- `Is_Frame_Number`. (script_parse.cpp:42-45) -/
def isFrameNumber (line : Str) : Bool := (frameNumber? line).isSome

/-- The loop of `Is_Convar` over the rest of a line from an index on; `spaceIndex` is the first
space, if there has been one. (script_parse.cpp:52-62) -/
def scanConvar : Str → ℕ → Option ℕ → Option (ℕ × ℕ)
  | [], _, _ => none
  | c :: rest, startIndex, some spaceIndex =>
    if isDigitByte c || c == 46 || c == 45 then some (spaceIndex, startIndex)
    else scanConvar rest (startIndex + 1) (some spaceIndex)
  | c :: rest, startIndex, none =>
    if isSpaceByte c then scanConvar rest (startIndex + 1) (some startIndex)
    else scanConvar rest (startIndex + 1) none

/-- `Is_Convar`, with `spaceIndex` and `startIndex`. (script_parse.cpp:47-73) -/
def convarIndices? {F : Type} (env : TextEnv F) (line : Str) : Option (ℕ × ℕ) :=
  (scanConvar line 0 none).filter fun indices =>
    env.isConvar (cStr (trim isSpaceByte (line.take indices.1)))

/-- The two groups of `TOGGLE_REGEX`, if a line matches it: whether the sign is a plus, and the
name. (script_parse.cpp:14) -/
def toggle? : Str → Option (Bool × Str)
  | [] => none
  | sign :: name =>
    if (sign = 43 ∨ sign = 45) ∧ name ≠ [] ∧ name.all isWordByte then some (sign == 43, name)
    else none

/-! ## Parsing lines -/

/-- `std::stoi` of digits; the error is the text of the exception. -/
def stoi (digits : Str) : Except Str Int :=
  if ofDecimal digits ≤ 2147483647 then .ok (ofDecimal digits) else .error (str "stoi")

namespace FrameBlock

variable {F : Type}

/-- `FrameBlock::Parse_Frame_No`, on the groups of the match. (script_parse.cpp:133-144) -/
def parseFrameNo (self : FrameBlock F) (plus : Bool) (digits : Str) (runningFrame : Int) :
    Except Str (FrameBlock F × Int) :=
  let runningFrame := if plus then runningFrame else 0
  (stoi digits).map fun n =>
    ({ self with frame := n + runningFrame, parsed := true }, n + runningFrame)

/-- `FrameBlock::Parse_Convar`. (script_parse.cpp:146-153) -/
def parseConvar (env : TextEnv F) (self : FrameBlock F) (line : Str) (spaceIndex startIndex : ℕ) :
    FrameBlock F :=
  { self with
    convars := self.convars.put (line.take spaceIndex) (env.fromChars (cStr (line.drop startIndex))) }

/-- `FrameBlock::Parse_Toggle`, on the groups of the match. (script_parse.cpp:155-169) -/
def parseToggle (self : FrameBlock F) (plus : Bool) (cmd : Str) : FrameBlock F :=
  { self with toggles := self.toggles.put cmd plus }

/-- `FrameBlock::Parse_Line`. (script_parse.cpp:176-189) -/
def parseLine (env : TextEnv F) (self : FrameBlock F) (line : Str) (runningFrame : Int) :
    Except Str (FrameBlock F × Int) :=
  if isWhitespace line then .ok (self, runningFrame)
  else
    match frameNumber? line with
    | some (plus, digits) => self.parseFrameNo plus digits runningFrame
    | none =>
      match convarIndices? env line with
      | some (spaceIndex, startIndex) =>
        .ok (self.parseConvar env line spaceIndex startIndex, runningFrame)
      | none =>
        match toggle? line with
        | some (plus, cmd) => .ok (self.parseToggle plus cmd, runningFrame)
        | none => .ok (self.addCommand line, runningFrame)

end FrameBlock

/-! ## Loading a script -/

/-- The local variables of `_Load_From_File`, and `blocks` of the script. -/
structure Loader (F : Type) where
  fb : FrameBlock F := {}
  runningFrame : Int := 0
  lineNumber : ℕ := 0
  blocks : List (FrameBlock F) := []

/-- What `_Load_From_File` leaves behind: the value returned, the blocks of the script, the
reader, and the text logged. -/
structure Loaded (F : Type) where
  rval : Bool
  blocks : List (FrameBlock F)
  reader : BufferReader
  log : Str

namespace Loader

variable {F : Type}

/-- The body of the loop of `_Load_From_File`; an exception leaves the blocks pushed so far.
(script_parse.cpp:319-326) -/
def parse (env : TextEnv F) (self : Loader F) (rawLine : Str) :
    Except (Loader F × Str) (Loader F) :=
  let currentLine := parseNewline rawLine
  let self := { self with lineNumber := self.lineNumber + 1 }
  let self :=
    if isFrameNumber currentLine && self.fb.parsed then
      { self with blocks := self.blocks ++ [self.fb], fb := self.fb.reset }
    else self
  match self.fb.parseLine env currentLine self.runningFrame with
  | .ok (fb, runningFrame) => .ok { self with fb := fb, runningFrame := runningFrame }
  | .error what => .error (self, what)

/-- The blocks after the loop. (script_parse.cpp:328-329) -/
def finish (self : Loader F) : List (FrameBlock F) :=
  if self.fb.parsed then self.blocks ++ [self.fb] else self.blocks

/-- The loop of `_Load_From_File`. (script_parse.cpp:317-340) -/
def loop (env : TextEnv F) : ℕ → BufferReader → Loader F → Loaded F
  | 0, reader, self => ⟨true, self.finish, reader, []⟩
  | fuel + 1, reader, self =>
    if reader.canRead then
      let (rawLine, reader) := reader.getLine
      match self.parse env rawLine with
      | .ok self => loop env fuel reader self
      | .error (self, what) =>
        ⟨false, self.blocks, reader,
          str "Error parsing line " ++ decimal self.lineNumber ++ str ": " ++ what ++ str "\n"⟩
    else ⟨true, self.finish, reader, []⟩

end Loader

namespace TASScript

variable {F : Type}

/-- `TASScript::_Load_From_File` on a buffer. (script_parse.cpp:308-341) -/
def loadFromReader (env : TextEnv F) (blocks : List (FrameBlock F)) (reader : BufferReader) :
    Loaded F :=
  Loader.loop env (reader.size - reader.offset) reader { blocks := blocks }

/-- `TASScript::Load_From_String`. (script_parse.cpp:301-304) -/
def loadFromString (env : TextEnv F) (blocks : List (FrameBlock F)) (input : Str) : Loaded F :=
  loadFromReader env blocks { buffer := input, size := input.length % 2 ^ 32 }

/-- `TASScript::Load_From_Memory`: the script is read by a reader of its own, whose offset the
reader then takes over. (script_parse.cpp:261-274) -/
def loadFromMemory (env : TextEnv F) (blocks : List (FrameBlock F)) (iface : BufferReader) :
    Option (Loaded F) := do
  let (bytes, iface) ← iface.readUInt32
  let loaded := loadFromReader env blocks
    { buffer := iface.buffer, size := (bytes + iface.offset) % 2 ^ 32, offset := iface.offset }
  some { loaded with reader := { iface with offset := loaded.reader.offset } }

/-- What `_Load_From_File` leaves behind when it reads a file. -/
structure LoadedFile (F : Type) where
  rval : Bool
  blocks : List (FrameBlock F)
  log : Str

/-- `TASScript::Load_From_File` on a file that can be opened, with its content.
(script_parse.cpp:287-298, 308-341) -/
def loadFromFile (env : TextEnv F) (blocks : List (FrameBlock F)) (content : Str) : LoadedFile F :=
  match forLinesOf content (Loader.parse env) { blocks := blocks } with
  | .ok loader => ⟨true, loader.finish, []⟩
  | .error (loader, what) =>
    ⟨false, loader.blocks,
      str "Error parsing line " ++ decimal loader.lineNumber ++ str ": " ++ what ++ str "\n"⟩

/-! ## Writing a script -/

/-- The lines that `_Write_To_File` writes for a block. (script_parse.cpp:349-369) -/
def blockText (env : TextEnv F) (currentFrame : Int) (block : FrameBlock F) : List Str :=
  (str "+" ++ decimalInt (block.frame - currentFrame) ++ str ":\n") ::
    ((block.convars.values.map fun cvar =>
        str "\t" ++ cStr cvar.1 ++ str " " ++ env.toChars cvar.2 ++ str "\n") ++
      (block.toggles.values.map fun toggle =>
        if toggle.2 then str "\t+" ++ cStr toggle.1 ++ str "\n"
        else str "\t-" ++ cStr toggle.1 ++ str "\n") ++
      block.commands.map fun cmd => str "\t" ++ cStr cmd ++ str "\n")

/-- The lines that `_Write_To_File` writes. (script_parse.cpp:343-372) -/
def text (env : TextEnv F) : Int → List (FrameBlock F) → List Str
  | _, [] => []
  | currentFrame, block :: blocks =>
    blockText env currentFrame block ++ text env block.frame blocks

/-- `TASScript::_Write_To_File` with a `FileWriteInterface`: the content of the file.
(script_parse.cpp:343-372) -/
def writeToFile (env : TextEnv F) (blocks : List (FrameBlock F)) : Option Str :=
  (text env 0 blocks).foldlM fileWrite []

/-- `TASScript::Write_To_Memory`: the length is filled in after the text has been written.
(script_parse.cpp:276-285) -/
def writeToMemory (env : TextEnv F) (blocks : List (FrameBlock F)) (iface : BufferWriter) :
    Option BufferWriter := do
  let offset := iface.offset
  let iface ← iface.write (str "0000")
  let iface ← iface.writeAll (text env 0 blocks)
  let iface := iface.finalize
  let length := sub32 (sub32 iface.offset offset) 4
  some { iface with mem := memcpy iface.mem offset (le32 length) }

end TASScript

/-!
## The operations of a buffer writer

What can be called on a `BufferWriteInterface` (io.cpp:145-200), and `TASScript::ToString`, which
writes a script to a buffer and copies its text.
-/

/-- `BufferWriteInterface::WriteLine`. (io.cpp:155-158) -/
def Io.BufferWriter.writeLine (self : BufferWriter) (s : Str) : Option BufferWriter :=
  self.write (cStr s ++ [10])

/-- A call: a format and arguments that print a text, a line, bytes, a vector with the given bytes,
or the end. -/
inductive WriterOp where
  | write (text : Str)
  | writeLine (s : Str)
  | writeBytes (bytes : Str)
  | writePodVec (bytes : Str)
  | finalize
deriving DecidableEq

namespace WriterOp

/-- The call is made. -/
def call (w : BufferWriter) : WriterOp → Option BufferWriter
  | write text => w.write text
  | writeLine s => w.writeLine s
  | writeBytes bytes => w.writeBytes bytes
  | writePodVec bytes => w.writeVec bytes
  | finalize => some w.finalize

/-- What the call is to add to the buffer. -/
def added : WriterOp → Str
  | write text => text
  | writeLine s => cStr s ++ [10]
  | writeBytes bytes => bytes
  | writePodVec bytes => le32 bytes.length ++ bytes
  | finalize => []

end WriterOp

/-- `TASScript::ToString`. (script_parse.cpp:461-468) -/
def TASScript.toString {F : Type} (env : TextEnv F) (blocks : List (FrameBlock F)) :
    Option Str := do
  let writer ← writeToMemory env blocks BufferWriter.init
  some (slice writer.mem 4 (sub32 writer.offset 4))

/-!
## Reading floats

`TASQuake::FloatFromString` (utils.cpp:20-25), which calls `std::from_chars` and returns its output
whatever has become of it.

`std::from_chars` reads the longest beginning of a text that is a float in the general format.  If
there is none, or if the number does not round to a finite float or rounds to zero without being
zero, it leaves the output as it is.  A number is kept as it is written; only whether it is in range
depends on the format of a `float`.
-/

/-- A number that has been read: `mantissa` times ten to the power of `exponent`, or one of the
special values. -/
inductive FloatNumber where
  | decimal (negative : Bool) (mantissa : ℕ) (exponent : Int)
  | infinity (negative : Bool)
  | nan (negative : Bool)
deriving DecidableEq

namespace FloatText

/-- The lower-case form of an ASCII letter. -/
def lowerByte (c : UInt8) : UInt8 := if 65 ≤ c ∧ c ≤ 90 then c + 32 else c

/-- The digits before and behind the point, and what follows them. -/
def scanMantissa (text : Str) : Str × Str × Str :=
  let whole := text.takeWhile isDigitByte
  let rest := text.dropWhile isDigitByte
  if rest.head? = some 46 then
    (whole, rest.tail.takeWhile isDigitByte, rest.tail.dropWhile isDigitByte)
  else (whole, [], rest)

/-- The exponent at the beginning of a text; without digits there is none. -/
def scanExponent : Str → Int
  | [] => 0
  | c :: rest =>
    if c = 101 ∨ c = 69 then
      if rest.head? = some 45 then -(ofDecimal (rest.tail.takeWhile isDigitByte) : Int)
      else if rest.head? = some 43 then ofDecimal (rest.tail.takeWhile isDigitByte)
      else ofDecimal (rest.takeWhile isDigitByte)
    else 0

/-- Whether a number rounds to a finite float, and to zero only if it is zero: it is more than half
of the smallest float and less than the middle between the largest float and the next power of
two. -/
def inRange (mantissa : ℕ) (exponent : Int) : Bool :=
  let num := mantissa * 10 ^ exponent.toNat
  let den := 10 ^ (-exponent).toNat
  decide (mantissa = 0 ∨ (den < num * 2 ^ 150 ∧ num < den * (2 ^ 128 - 2 ^ 103)))

/-- `std::from_chars` behind a sign. -/
def fromCharsUnsigned (negative : Bool) (text : Str) : Option FloatNumber :=
  if (text.take 3).map lowerByte = str "inf" then some (.infinity negative)
  else if (text.take 3).map lowerByte = str "nan" then some (.nan negative)
  else
    let (whole, frac, rest) := scanMantissa text
    let exponent := scanExponent rest - frac.length
    -- `invalid_argument` without a digit, `result_out_of_range`
    if whole ++ frac ≠ [] ∧ inRange (ofDecimal (whole ++ frac)) exponent then
      some (.decimal negative (ofDecimal (whole ++ frac)) exponent)
    else none

/-- `TASQuake::FloatFromString`, or `none` if the float that it returns has not been set.
(libtasquake/src/utils.cpp:20-25) -/
def floatFromString (buffer : Str) : Option FloatNumber :=
  if buffer.head? = some 45 then fromCharsUnsigned true buffer.tail
  else fromCharsUnsigned false buffer

/-- The parser with this conversion. -/
def env (isConvar : Str → Bool) (toChars : Option FloatNumber → Str) :
    TextEnv (Option FloatNumber) := ⟨isConvar, toChars, floatFromString⟩

end FloatText

end TASQuake
