import Mathlib.Algebra.Group.Nat.Defs
import TASQuake.Lib.Memory
import TASQuake.Lib.Run

/-!
# The loopback network driver

The driver of net_loop.c.  Each of the two sockets has a queue `receiveMessage` into which the
functions that send on the other socket pack their messages: a byte with the type, two bytes with
the length, a byte that is skipped, the contents, and padding to a multiple of four.

The bytes of a socket from the start of `receiveMessage` on are the array and then what lies behind
it in the socket, so a write past the end of the array is a write to those.
-/

namespace TASQuake.LoopNet

open Lib

/-- `NET_MAXMESSAGE`. (net.h:31) -/
def netMaxMessage : ℕ := 8192

/-- `MAX_DATAGRAM`. (quakedef.h:73) -/
def maxDatagram : ℕ := 1024

/-- The bytes of a socket from the start of the array on. -/
structure MessageBuffer where
  bytes : List UInt8
  array_le : netMaxMessage ≤ bytes.length
deriving DecidableEq

/-- Writing to the array, or to what lies behind it. -/
def MessageBuffer.write (self : MessageBuffer) (offset : ℕ) (src : List UInt8) : MessageBuffer where
  bytes := memcpy self.bytes offset src
  array_le := Nat.le_trans self.array_le (length_le_memcpy self.bytes offset src)

/-- `qsocket_t`, as far as the driver uses it. -/
structure QSocket where
  /-- whether `driverdata` points to the other socket or is null -/
  driverdata : Bool
  canSend : Bool
  receiveMessageLength : ℕ
  receiveMessage : MessageBuffer
  /-- one more than the highest index of `receiveMessage` written so far; the program has no
  such variable -/
  written : ℕ
deriving DecidableEq

/-- `IntAlign`: the two low bits are cleared after adding 3. (net_loop.c:126-129) -/
def intAlign (value : ℕ) : ℕ := (value + 3) / 4 * 4

namespace QSocket

/-- A socket of a new connection; the array still has its old contents.
(net_loop.c:76-101,105-120) -/
def connected (receiveMessage : MessageBuffer) : QSocket where
  driverdata := true
  canSend := true
  receiveMessageLength := 0
  receiveMessage := receiveMessage
  written := 0

/-- The part of the two send functions behind their checks, on the socket that receives.
(net_loop.c:172-185,206-219) -/
def putMessage (self : QSocket) (type : UInt8) (data : List UInt8) : QSocket :=
  let offset := self.receiveMessageLength
  let header := [type, UInt8.ofNat data.length, UInt8.ofNat (data.length / 2 ^ 8)]
  { self with
    receiveMessage := (self.receiveMessage.write offset header).write (offset + 4) data
    receiveMessageLength := intAlign (offset + data.length + 4)
    written := max self.written (if data = [] then offset + 3 else offset + 4 + data.length) }

/-- The number in the two bytes behind the type. (net_loop.c:141) -/
def messageLength (self : QSocket) : ℕ :=
  match self.receiveMessage.bytes with
  | _ :: low :: high :: _ => low.toNat + high.toNat * 2 ^ 8
  | _ => 0

/-- The type of the first message. (net_loop.c:140) -/
def messageType (self : QSocket) : UInt8 := self.receiveMessage.bytes.headD 0

/-- The queue without its first `length` bytes. (net_loop.c:147-150) -/
def advance (self : QSocket) (length : ℕ) : QSocket :=
  let rest := self.receiveMessageLength - length
  { self with
    receiveMessageLength := rest
    receiveMessage := self.receiveMessage.write 0 (slice self.receiveMessage.bytes length rest)
    written := max self.written rest }

end QSocket

/-! ## The two sockets of a game -/

/-- The two ends. -/
inductive Side
  | client
  | server
deriving DecidableEq

/-- `driverdata` of a connected socket. -/
def Side.peer : Side → Side
  | client => server
  | server => client

/-- The calls of the driver. -/
inductive Action
  | sendMessage (side : Side) (data : List UInt8)
  | sendUnreliableMessage (side : Side) (data : List UInt8)
  | getMessage (side : Side)
deriving DecidableEq

/-- A call, what it returned, and what it left in `net_message` if it is a call of
`Loop_GetMessage`. -/
structure Event where
  action : Action
  ret : Int
  netMessage : List UInt8 := []
deriving DecidableEq

/-- The two sockets, and the calls made so far. -/
structure Pair where
  client : QSocket
  server : QSocket
  log : List Event := []
deriving DecidableEq

namespace Pair

/-- One of the sockets. -/
def sock (self : Pair) : Side → QSocket
  | .client => self.client
  | .server => self.server

/-- A change of one of the sockets. -/
def modify (self : Pair) (side : Side) (f : QSocket → QSocket) : Pair :=
  match side with
  | .client => { self with client := f self.client }
  | .server => { self with server := f self.server }

/-- The call is over. -/
def record (self : Pair) (event : Event) : Pair := { self with log := self.log ++ [event] }

/-- `Loop_GetMessage`, or `none` if `SZ_Write` calls `Sys_Error`.
(net_loop.c:132-156, common.c:599-624) -/
def getMessage (self : Pair) (side : Side) : Option Pair :=
  let sock := self.sock side
  if sock.receiveMessageLength = 0 then some (self.record ⟨.getMessage side, 0, []⟩)
  else if netMaxMessage < sock.messageLength then none
  else
    let ret := sock.messageType
    let netMessage := slice sock.receiveMessage.bytes 4 sock.messageLength
    let moved := self.modify side fun sock => sock.advance (intAlign (sock.messageLength + 4))
    let acked :=
      if sock.driverdata ∧ ret = 1 then moved.modify side.peer fun peer => { peer with canSend := true }
      else moved
    some (acked.record ⟨.getMessage side, ret.toNat, netMessage⟩)

/-- `Loop_SendMessage`, or `none` if it calls `Sys_Error`. (net_loop.c:159-189) -/
def sendMessage (self : Pair) (side : Side) (data : List UInt8) : Option Pair :=
  let event := Event.mk (.sendMessage side data)
  if ¬ (self.sock side).driverdata then some (self.record (event (-1) []))
  else if (self.sock side.peer).receiveMessageLength + data.length + 4 > netMaxMessage then none
  else
    let sent := self.modify side.peer fun peer => peer.putMessage 1 data
    some ((sent.modify side fun sock => { sock with canSend := false }).record (event 1 []))

/-- `Loop_SendUnreliableMessage`. (net_loop.c:192-222) -/
def sendUnreliableMessage (self : Pair) (side : Side) (data : List UInt8) : Pair :=
  let event := Event.mk (.sendUnreliableMessage side data)
  if ¬ (self.sock side).driverdata then self.record (event (-1) [])
  else if (self.sock side.peer).receiveMessageLength + data.length + 1 + 2 > netMaxMessage then
    self.record (event 0 [])
  else (self.modify side.peer fun peer => peer.putMessage 2 data).record (event 1 [])

/-- One call. -/
def step (self : Pair) : Action → Option Pair
  | .sendMessage side data => self.sendMessage side data
  | .sendUnreliableMessage side data => some (self.sendUnreliableMessage side data)
  | .getMessage side => self.getMessage side

/-- A new connection. (net_loop.c:63-120) -/
def connected (client server : MessageBuffer) : Pair where
  client := QSocket.connected client
  server := QSocket.connected server

end Pair

/-! ## What has been sent and received -/

/-- A message with its type: 1 for a reliable and 2 for an unreliable one. -/
structure Message where
  type : Int
  data : List UInt8
deriving DecidableEq

/-- The message that a send function accepted for a side. -/
def Event.accepted? (self : Event) (side : Side) : Option Message :=
  match self.action with
  | .sendMessage sender data => if sender.peer = side ∧ self.ret = 1 then some ⟨1, data⟩ else none
  | .sendUnreliableMessage sender data =>
    if sender.peer = side ∧ self.ret = 1 then some ⟨2, data⟩ else none
  | .getMessage _ => none

/-- The message that `Loop_GetMessage` returned on a side. -/
def Event.delivered? (self : Event) (side : Side) : Option Message :=
  match self.action with
  | .getMessage receiver =>
    if receiver = side ∧ self.ret ≠ 0 then some ⟨self.ret, self.netMessage⟩ else none
  | _ => none

/-- The messages that the send functions accepted for a side, in order. -/
def Pair.accepted (self : Pair) (side : Side) : List Message :=
  self.log.filterMap fun event => event.accepted? side

/-- The messages that `Loop_GetMessage` returned on a side, in order. -/
def Pair.delivered (self : Pair) (side : Side) : List Message :=
  self.log.filterMap fun event => event.delivered? side

end TASQuake.LoopNet
