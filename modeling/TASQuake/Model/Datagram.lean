import TASQuake.Model.LoopNet

/-!
# Receiving datagrams

`Datagram_GetMessage` of net_dgrm.c, on one socket.  One turn of its loop is `Receiver.round`: it
takes what `sfunc.Read` returned and either goes on or returns from the function, and the next call
starts with the next turn.  What the function does for the messages that the socket sends (the
resending at its start, the answer to an `ACK` packet, the sending at its end) reads and changes
other fields of the socket and is left out; it also uses `packetBuffer`, so the bytes there that a
packet does not reach can be any.
-/

namespace TASQuake.Datagram

open LoopNet (netMaxMessage maxDatagram)

/-- `NET_HEADERSIZE`. (net.h:32) -/
def netHeaderSize : ℕ := 8

/-- `NET_DATAGRAMSIZE`. (net.h:33) -/
def netDatagramSize : ℕ := maxDatagram + netHeaderSize

/-- A packet with a whole header. -/
structure Packet where
  /-- `readaddr` -/
  source : ℕ
  /-- `packetBuffer.length`, after `BigLong` -/
  word : UInt32
  sequence : UInt32
  /-- `packetBuffer.data` once the packet has been read -/
  data : List UInt8
  data_length : data.length = maxDatagram
  /-- the number of bytes of `data` that came with the packet -/
  received : ℕ
  received_le : received ≤ maxDatagram
deriving DecidableEq

namespace Packet

/-- The length field. (net_dgrm.c:351-353, `NETFLAG_LENGTH_MASK`) -/
def length (self : Packet) : ℕ := self.word.toNat % 2 ^ 16

/-- What remains of the length field, an `unsigned int`, without the header.
(net_dgrm.c:390,444) -/
def payload (self : Packet) : ℕ := (self.length + 2 ^ 32 - netHeaderSize) % 2 ^ 32

/-- `NETFLAG_DATA`. (net.h:37) -/
def isData (self : Packet) : Bool := self.word.toNat.testBit 16

/-- `NETFLAG_ACK`. -/
def isAck (self : Packet) : Bool := self.word.toNat.testBit 17

/-- `NETFLAG_EOM`. -/
def isEom (self : Packet) : Bool := self.word.toNat.testBit 19

/-- `NETFLAG_UNRELIABLE`. -/
def isUnreliable (self : Packet) : Bool := self.word.toNat.testBit 20

/-- `NETFLAG_CTL`. (net.h:42) -/
def isCtl (self : Packet) : Bool := self.word.toNat.testBit 31

end Packet

/-- What `sfunc.Read` returns: 0, -1, fewer bytes than a header has, or a packet. -/
inductive Read
  | nothing
  | failed
  | short
  | packet (packet : Packet)
deriving DecidableEq

/-- The bytes in use of an array of `NET_MAXMESSAGE` bytes: `net_message`, or the `receiveMessage`
of a socket. -/
def Buffer : Type := { bytes : List UInt8 // bytes.length ≤ netMaxMessage }
deriving DecidableEq

namespace Buffer

/-- No byte in use, as after `SZ_Clear`. -/
def empty : Buffer := ⟨[], Nat.zero_le _⟩

/-- Copying the first `length` bytes of `src` behind the bytes in use, or `none` if that leaves one
of the two arrays.  In `SZ_Write` this is a call of `Sys_Error`, or, for a length of 2^31 or more
(which is negative there and passes the check), a copy of that many bytes.
(common.c:598-624, net_dgrm.c:457-458) -/
def write (self : Buffer) (src : List UInt8) (length : ℕ) : Option Buffer :=
  if h : length ≤ src.length ∧ self.1.length + length ≤ netMaxMessage then
    some ⟨self.1 ++ src.take length, by rw [List.length_append, List.length_take]; omega⟩
  else none

end Buffer

/-- `qsocket_t`, as far as receiving reads it, and `net_message`. -/
structure Receiver where
  netWait : Bool
  addr : ℕ
  receiveSequence : UInt32 := 0
  unreliableReceiveSequence : UInt32 := 0
  receiveMessage : Buffer := .empty
  netMessage : Buffer
  /-- what the function returned after the last packet, if it did -/
  ret : Option Int := none
  /-- the payload length used of the last packet, and the bytes that came with it behind the header;
  the program has no such variable -/
  used : ℕ × ℕ := (0, 0)
deriving DecidableEq

namespace Receiver

/-- The part of the loop for an unreliable packet. (net_dgrm.c:374-395) -/
def unreliable (self : Receiver) (p : Packet) : Option Receiver :=
  if p.sequence < self.unreliableReceiveSequence then some { self with ret := some 0 }
  else
    (Buffer.empty.write p.data p.payload).map fun netMessage =>
      { self with
        unreliableReceiveSequence := p.sequence + 1
        netMessage := netMessage
        ret := some 2
        used := (p.payload, p.received) }

/-- The part of the loop that collects the fragments of a reliable message. (net_dgrm.c:431-460) -/
def reliable (self : Receiver) (p : Packet) : Option Receiver :=
  if p.sequence ≠ self.receiveSequence then some self
  else
    let self :=
      { self with
        receiveSequence := self.receiveSequence + 1
        used := (p.payload, p.received) }
    if p.isEom then do
      let pending ← Buffer.empty.write self.receiveMessage.1 self.receiveMessage.1.length
      (pending.write p.data p.payload).map fun netMessage =>
        { self with netMessage := netMessage, receiveMessage := .empty, ret := some 1 }
    else
      (self.receiveMessage.write p.data p.payload).map fun receiveMessage =>
        { self with receiveMessage := receiveMessage }

/-- One turn of the loop of `Datagram_GetMessage`, or `none` if a copy leaves its array.
(net_dgrm.c:316-461) -/
def round (self : Receiver) (read : Read) : Option Receiver :=
  let self := { self with ret := none, used := (0, 0) }
  match read with
  | .nothing => some { self with ret := some 0 }
  | .failed => some { self with ret := some (-1) }
  | .short => some self
  | .packet p =>
    if self.netWait = false ∧ p.source ≠ self.addr then some self
    else if netDatagramSize < p.length then some { self with ret := some (-1) }
    else if p.isCtl then some self
    else
      let self :=
        { self with netWait := false, addr := if self.netWait then p.source else self.addr }
      if p.isUnreliable then self.unreliable p
      else if p.isAck then some self
      else if p.isData then self.reliable p
      else some self

/-- A new socket. (net_main.c:134-170) -/
def newQSocket (netWait : Bool) (addr : ℕ) (netMessage : Buffer) : Receiver where
  netWait := netWait
  addr := addr
  netMessage := netMessage

end Receiver

end TASQuake.Datagram
