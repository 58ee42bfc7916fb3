import TASQuake.Lib.Memory
import TASQuake.Lib.Run
import TASQuake.Lib.Pod

/-!
# Reading and writing buffers and files

`BufferReadInterface`, `BufferWriteInterface`, `FileReadInterface` and `FileWriteInterface` of
libtasquake (io.hpp, io.cpp).

The memory of a writer is the list of the bytes allocated, which can be more than
`m_pBuffer->size`.  Memory that `realloc` adds is zero here; it is never read before it is
written.  `realloc` does not fail.  Sizes and offsets are 32-bit words.  A file is the list of
its bytes; it can be opened, read and written.
-/

namespace TASQuake.Io

open Lib

/-- The difference of two 32-bit words. -/
def sub32 (a b : ℕ) : ℕ := (a + 2 ^ 32 - b) % 2 ^ 32

/-! ## Reading -/

/-- `BufferReadInterface`. -/
structure BufferReader where
  /-- the memory at `m_pBuffer` -/
  buffer : List UInt8
  /-- `m_uSize` -/
  size : ℕ
  /-- `m_uFileOffset` -/
  offset : ℕ := 0
deriving DecidableEq

/-- A line ends at a newline and at a null character. -/
def isLineEnd (c : UInt8) : Bool := c == 0 || c == 10

namespace BufferReader

/-- `BufferReadInterface::CanRead`. (io.cpp:75-77) -/
def canRead (self : BufferReader) : Bool := decide (self.offset < self.size)

/-- The bytes that have not been read. -/
def remaining (self : BufferReader) : List UInt8 :=
  slice self.buffer self.offset (self.size - self.offset)

/-- The loop of `BufferReadInterface::GetLine`, which goes on while the line is empty.
(io.cpp:85-102) -/
def getLineLoop : ℕ → BufferReader → List UInt8 × BufferReader
  | 0, self => ([], self)
  | fuel + 1, self =>
    if self.offset < self.size then
      let line := self.remaining.takeWhile fun c => !isLineEnd c
      -- past the end of the line, or past the end of the buffer if the line does not end
      let self := { self with offset := self.offset + line.length + 1 }
      if line.isEmpty then getLineLoop fuel self else (line, self)
    else ([], self)

/-- `BufferReadInterface::GetLine`; what it returns is whether the line is not empty.
(io.cpp:79-105) -/
def getLine (self : BufferReader) : List UInt8 × BufferReader :=
  if !self.canRead then ([], self) else getLineLoop (self.size - self.offset) self

/-- `BufferReadInterface::Read`: the bytes read. (io.cpp:107-113) -/
def read (self : BufferReader) (bufSize : ℕ) : List UInt8 × BufferReader :=
  let bytesToRead := min (sub32 self.size self.offset) bufSize
  (slice self.buffer self.offset bytesToRead, { self with offset := self.offset + bytesToRead })

/-- `Read(&value, 4)` of a `uint32_t`; a value that has not been read completely is
indeterminate. -/
def readUInt32 (self : BufferReader) : Option (ℕ × BufferReader) :=
  let (bytes, self) := self.read 4
  if bytes.length = 4 then some (ofLe bytes, self) else none

/-- `Read(&value)` of a plain type; a value that has not been read completely is indeterminate.
(io.hpp:83-86) -/
def readPod {α : Type} (pod : Pod α) (self : BufferReader) : Option (α × BufferReader) :=
  let (bytes, self) := self.read pod.size
  if bytes.length = pod.size then some (pod.ofBytes bytes, self) else none

/-- `BufferReadInterface::ReadPODVec`, or `none` if it reads beyond the memory or copies more
bytes than the vector has. (io.hpp:73-81) -/
def readPodVec {α : Type} (pod : Pod α) (self : BufferReader) : Option (List α × BufferReader) :=
  let head := slice self.buffer self.offset 4
  if head.length ≠ 4 then none
  else
    let size := ofLe head
    let offset := (self.offset + 4) % 2 ^ 32
    let bytes := slice self.buffer offset size
    if bytes.length ≠ size ∨ size % pod.size ≠ 0 then none
    else
      some (pod.ofVecBytes (size / pod.size) bytes,
        { self with offset := (offset + size) % 2 ^ 32 })

end BufferReader

/-! ## Writing -/

/-- `BufferWriteInterface` and its `Buffer`. -/
structure BufferWriter where
  /-- the memory at `m_pBuffer->ptr` -/
  mem : List UInt8
  /-- `m_pBuffer->size` -/
  size : ℕ
  /-- `m_uFileOffset` -/
  offset : ℕ := 0
deriving DecidableEq

/-- `vsnprintf` into `n` bytes at an offset, for a format and arguments that print `text`. -/
def vsnprintf (mem : List UInt8) (offset n : ℕ) (text : List UInt8) : List UInt8 :=
  if n = 0 then mem else memcpy mem offset (text.take (n - 1) ++ [0])

namespace BufferWriter

/-- `BufferWriteInterface::Init`. (io.cpp:145-149) -/
def init : BufferWriter := { mem := List.replicate 128 0, size := 128 }

/-- `Buffer::Realloc`. (io.cpp:13-23) -/
def realloc (self : BufferWriter) (newSize : ℕ) : BufferWriter :=
  { self with
    mem := self.mem.take newSize ++ List.replicate (newSize - self.mem.length) 0
    size := newSize }

/-- The loop that doubles the size: every shift drops the bit that leaves the 32-bit word.
(io.cpp:187-189) -/
def growSize (targetSize : ℕ) : ℕ → ℕ → Option ℕ
  | 0, _ => none
  | fuel + 1, newSize =>
    if newSize < targetSize then growSize targetSize fuel ((newSize <<< 1) % 2 ^ 32)
    else some newSize

/-- `BufferWriteInterface::AllocateSpaceForWrite`, or `none` if its loop does not end: after 32
shifts the size is 0 and stays 0. (io.cpp:183-194) -/
def allocateSpaceForWrite (self : BufferWriter) (bytes : ℕ) : Option BufferWriter := do
  let targetSize := (self.offset + bytes) % 2 ^ 32
  let newSize ← growSize targetSize 33 (max 1 self.size)
  some (if newSize ≠ self.size then self.realloc newSize else self)

/-- `bytesLeft` of `BufferWriteInterface::Write`. -/
def bytesLeft (self : BufferWriter) : ℕ := sub32 self.size self.offset

/-- The call of `vsnprintf` in `BufferWriteInterface::Write`. (io.cpp:164, 169) -/
def print (self : BufferWriter) (text : List UInt8) : BufferWriter :=
  { self with mem := vsnprintf self.mem self.offset self.bytesLeft text }

/-- `m_uFileOffset += bytes`. -/
def advance (self : BufferWriter) (bytes : ℕ) : BufferWriter :=
  { self with offset := (self.offset + bytes) % 2 ^ 32 }

/-- `BufferWriteInterface::Write` with a format and arguments that print `text`.  A text whose
length is not an `int` makes `vsnprintf` fail, which `Write` does not notice. (io.cpp:160-176) -/
def write (self : BufferWriter) (text : List UInt8) : Option BufferWriter :=
  if 2 ^ 31 ≤ text.length then none
  else if text.length ≠ self.bytesLeft then do
    let self ← (self.print text).allocateSpaceForWrite text.length
    some ((self.print text).advance text.length)
  else some ((self.print text).advance text.length)

/-- Several calls of `Write`. -/
def writeAll (self : BufferWriter) (texts : List (List UInt8)) : Option BufferWriter :=
  texts.foldlM write self

/-- `memcpy` to the offset of the writer, which moves past the bytes; `none` if this writes
beyond the memory. -/
def put (self : BufferWriter) (bytes : List UInt8) : Option BufferWriter :=
  if self.offset + bytes.length ≤ self.mem.length then
    some ({ self with mem := memcpy self.mem self.offset bytes }.advance bytes.length)
  else none

/-- `BufferWriteInterface::WriteBytes`. (io.cpp:196-200) -/
def writeBytes (self : BufferWriter) (bytes : List UInt8) : Option BufferWriter := do
  let self ← self.allocateSpaceForWrite bytes.length
  self.put bytes

/-- `Write(&value)` of a plain type. (io.hpp:132-135) -/
def writePod {α : Type} (pod : Pod α) (self : BufferWriter) (a : α) : Option BufferWriter :=
  self.writeBytes (pod.toBytes a)

/-- `BufferWriteInterface::WritePODVec` of a vector with the given bytes. (io.hpp:122-130) -/
def writeVec (self : BufferWriter) (bytes : List UInt8) : Option BufferWriter := do
  let size := bytes.length % 2 ^ 32
  let self ← self.allocateSpaceForWrite ((size + 4) % 2 ^ 32)
  let self ← self.put (le32 size)
  self.put (bytes.take size)

/-- `BufferWriteInterface::WritePODVec`. -/
def writePodVec {α : Type} (pod : Pod α) (self : BufferWriter) (vec : List α) :
    Option BufferWriter := self.writeVec (pod.vecBytes vec)

/-- `BufferWriteInterface::Finalize`. (io.cpp:178-180) -/
def finalize (self : BufferWriter) : BufferWriter := { self with size := self.offset }

end BufferWriter

/-! ## Files -/

/-- `std::ifstream`: the bytes that have not been read, and whether neither the end of the file
nor an error has been met. -/
structure FileReader where
  rest : List UInt8
  good : Bool := true
deriving DecidableEq

namespace FileReader

/-- `FileReadInterface::CanRead`. (io.cpp:50-52) -/
def canRead (self : FileReader) : Bool := self.good

/-- `std::getline` on a good stream: the newline is removed and not stored, and the end of the
file also ends a line. (io.cpp:54-57) -/
def getLine (self : FileReader) : List UInt8 × FileReader :=
  let line := self.rest.takeWhile fun c => c != 10
  match self.rest.dropWhile fun c => c != 10 with
  | [] => (line, { rest := [], good := false })
  | _ :: rest => (line, { rest := rest })

/-- A loop that reads lines while it can and does something with each of them. -/
def forLines {σ ε : Type} (body : σ → List UInt8 → Except ε σ) : ℕ → FileReader → σ → Except ε σ
  | 0, _, s => .ok s
  | fuel + 1, self, s =>
    if self.canRead then do
      let (line, self) := self.getLine
      let s ← body s line
      forLines body fuel self s
    else .ok s

end FileReader

/-- Such a loop on a file that has just been opened. -/
def forLinesOf {σ ε : Type} (content : List UInt8) (body : σ → List UInt8 → Except ε σ) (s : σ) :
    Except ε σ :=
  FileReader.forLines body (content.length + 2) { rest := content } s

/-- The size of `BUFFER` in `FileWriteInterface::Write`. -/
def lineBufferSize : ℕ := 1024

/-- `FileWriteInterface::Write` with a format and arguments that print `text`: what is in the
file afterwards. (io.cpp:129-138) -/
def fileWrite (content text : List UInt8) : Option (List UInt8) :=
  if 2 ^ 31 ≤ text.length then none
  else
    let buffer := vsnprintf (List.replicate lineBufferSize 0) 0 lineBufferSize text
    some (content ++ buffer.take (min lineBufferSize text.length))

end TASQuake.Io
