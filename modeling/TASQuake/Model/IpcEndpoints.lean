import Mathlib.Algebra.Group.Nat.Defs
import TASQuake.Lib.Pod
import TASQuake.Lib.Memory

/-!
# The server's sessions and the client

The objects of boost_ipc.cpp that outlive a read.  A `shared_ptr` to a session is the number of the
session object, counted over the life of the server.  What the sockets do is an argument of the
operations.  `none` is the end of the program: a null pointer that is used, an erasure that is
undefined, `std::terminate`.
-/

namespace TASQuake.Ipc

open Lib

/-!
## Messages between the games

The receiving and sending ends of the connections of boost_ipc.cpp.  `session::do_read` and
`client::do_read` have the same loop; they differ in the connection id with which a message
is tagged and in the vector to which it is pushed.

A chunk is what one `async_read_some` has put into `sockbuf`.  An allocated block is the list
of its bytes, zero before they are written; the null pointer is `none`.
-/

/-- `ipc::Message`. -/
structure Message where
  address : Option (List UInt8) := none
  length : ℕ := 0
  connectionId : ℕ := 0
deriving DecidableEq, Inhabited

/-- The receiving state of a connection, and the messages delivered so far. -/
structure Receiver where
  /-- `m_currentMessage` -/
  currentMessage : Message := {}
  /-- `m_uBytesWritten` -/
  bytesWritten : ℕ := 0
  /-- `messages` of the server, or `messages_` of the client -/
  messages : List Message := []
deriving DecidableEq, Inhabited

/-- `MAX_BYTES`. -/
def maxBytes : ℕ := 2 ^ 25

namespace Receiver

/-- The branch of the loop that reads the length of a message. (boost_ipc.cpp:43-56) -/
def readHeader (connectionId : ℕ) (self : Receiver) (buffer : List UInt8) : Receiver :=
  let sizeBytes := ofLe (buffer.take 4)
  { self with
    currentMessage :=
      { address := if maxBytes < sizeBytes then none else some (List.replicate sizeBytes 0)
        length := sizeBytes
        connectionId := connectionId } }

/-- `bytesToRead`. (boost_ipc.cpp:58) -/
def bytesToRead (self : Receiver) (buffer : List UInt8) : ℕ :=
  min (self.currentMessage.length - self.bytesWritten) buffer.length

/-- The current message with the bytes copied to it. (boost_ipc.cpp:59-60) -/
def fill (self : Receiver) (buffer : List UInt8) : Message :=
  { self.currentMessage with
    address := self.currentMessage.address.map fun block =>
      memcpy block self.bytesWritten (buffer.take (self.bytesToRead buffer)) }

/-- A complete message is pushed, unless it was too long to be stored. (boost_ipc.cpp:66-72) -/
def deliver (self : Receiver) (message : Message) : Receiver :=
  { currentMessage := {}
    bytesWritten := 0
    messages := if message.address.isSome then self.messages ++ [message] else self.messages }

/-- The branch of the loop that reads the bytes of a message: the receiver and the bytes left,
or `none` for `abort()`. (boost_ipc.cpp:58-77) -/
def readBody (self : Receiver) (buffer : List UInt8) : Option (Receiver × List UInt8) :=
  let message := self.fill buffer
  let written := self.bytesWritten + self.bytesToRead buffer
  let rest := buffer.drop (self.bytesToRead buffer)
  if message.length = written then some (self.deliver message, rest)
  else if message.length < written then none
  else some ({ self with currentMessage := message, bytesWritten := written }, rest)

/-- The loop over a chunk.  `fuel` bounds the iterations. (boost_ipc.cpp:36-78) -/
def readLoop (connectionId : ℕ) : ℕ → Receiver → List UInt8 → Option Receiver
  | _, self, [] => some self
  | 0, _, _ :: _ => none
  | fuel + 1, self, byte :: rest =>
    let buffer := byte :: rest
    if self.currentMessage.length = 0 then
      -- "Message was too short, did not contain length!"
      if buffer.length < 4 then some self
      else readLoop connectionId fuel (self.readHeader connectionId buffer) (buffer.drop 4)
    else
      match self.readBody buffer with
      | none => none
      | some (self, buffer) => readLoop connectionId fuel self buffer

/-- The handler of a read.  Every iteration takes a byte of the chunk, except for one that
finds a complete message. (boost_ipc.cpp:29-80, 206-257) -/
def doRead (connectionId : ℕ) (self : Receiver) (chunk : List UInt8) : Option Receiver :=
  readLoop connectionId (chunk.length + 1) self chunk

end Receiver

/-- `session::do_read`, of the session with the given id. -/
def sessionRead (connectionId : ℕ) : Receiver → List UInt8 → Option Receiver :=
  Receiver.doRead connectionId

/-- `client::do_read`; its messages are tagged with 0. -/
def clientRead : Receiver → List UInt8 → Option Receiver := Receiver.doRead 0

/-- What `write_to_socket` puts on the stream: `total_bytes` is an `int32_t`, and nothing is
written if it is not positive. (boost_ipc.cpp:18-27) -/
def writeToSocket (data : List UInt8) : List UInt8 := if data.length < 2 ^ 31 then data else []

/-- `send_message`, of the server and of the client. (boost_ipc.cpp:139-143, 259-264) -/
def sendMessage (data : List UInt8) : List UInt8 :=
  writeToSocket (le32 data.length) ++ writeToSocket data

/-! ## The server -/

/-- `ipc::session`: the object and its `connection_id`. -/
structure Session where
  object : ℕ
  connectionId : ℕ
deriving DecidableEq

/-- `ipc::server`, with the number of session objects it has made and those whose read has not
failed. -/
structure Server where
  newSessionId : ℕ := 0
  sessions : List Session := []
  created : ℕ := 0
  reading : List Session := []
deriving DecidableEq

namespace Server

/-- The handler of `async_accept`; the connection id is a 64-bit `size_t`.
(boost_ipc.cpp:158-177) -/
def doAccept (self : Server) : Server :=
  let session : Session := { object := self.created, connectionId := self.newSessionId }
  { newSessionId := (self.newSessionId + 1) % 2 ^ 64
    sessions := self.sessions ++ [session]
    created := self.created + 1
    reading := self.reading ++ [session] }

/-- `delete_session`.  `std::remove` moves the other sessions to the front, and `erase` with one
iterator erases one element behind them: that is right for a pointer that occurs once, undefined for
one that does not occur, and leaves elements without a value for one that occurs more often.
(boost_ipc.cpp:116-119) -/
def deleteSession (self : Server) (session : Session) : Option Server :=
  if self.sessions.count session = 1 then
    some { self with sessions := self.sessions.filter fun other => decide (other ≠ session) }
  else none

/-- The handler of a read that fails: the session's last one. (boost_ipc.cpp:82-85) -/
def readFails (self : Server) (session : Session) : Option Server :=
  { self with reading := self.reading.erase session }.deleteSession session

/-- `get_session`; `none` for the null pointer. (boost_ipc.cpp:121-130) -/
def getSession (self : Server) (connectionId : ℕ) : Option Session :=
  self.sessions.find? fun session => decide (session.connectionId = connectionId)

/-- `get_sessions`. (boost_ipc.cpp:150-156) -/
def getSessions (self : Server) : List ℕ := self.sessions.map Session.connectionId

end Server

/-- Where the main thread is in `SV_BroadCastMessage`: not in it, before the iteration of its loop
for the first of some ids, or in `send_message` with the session that `get_session` returned. -/
inductive Broadcast where
  | idle
  | next (connections : List ℕ)
  | writing (session : Option Session) (connections : List ℕ)
deriving DecidableEq

/-- The server and its main thread, with the sessions that were there when the latest broadcast
started and those that the message has been sent to, in order. -/
structure Broadcaster where
  server : Server := {}
  main : Broadcast := .idle
  atStart : List Session := []
  sent : List Session := []
deriving DecidableEq

/-- The next section of `SV_BroadCastMessage`, from one acquisition of the lock to the next; a
broadcast is started if there is none. (ipc2.cpp:29-36, boost_ipc.cpp:138-142) -/
def Broadcaster.mainStep (self : Broadcaster) : Option Broadcaster :=
  match self.main with
  | .idle =>
    some
      { self with
        main := .next self.server.getSessions
        atStart := self.server.sessions
        sent := [] }
  | .next [] => some { self with main := .idle }
  | .next (connectionId :: connections) =>
    some { self with main := .writing (self.server.getSession connectionId) connections }
  | .writing (some session) connections =>
    some { self with main := .next connections, sent := self.sent ++ [session] }
  | .writing none _ => none

/-! ## The client -/

/-- `ipc::client`: what it has received, `m_bConnected`, and whether its receiving thread has been
started and not joined. -/
structure Client where
  receiver : Receiver := {}
  connected : Bool := false
  joinable : Bool := false
deriving DecidableEq

namespace Client

/-- `client::connect`; `reached` says whether there is a server.  A thread must not be assigned to
one that is joinable. (boost_ipc.cpp:272-288) -/
def connect (self : Client) (reached : Bool) : Option Client :=
  if !reached then some self
  else if self.joinable then none
  else some { self with connected := true, joinable := true }

/-- `client::disconnect`. (boost_ipc.cpp:295-310) -/
def disconnect (self : Client) : Client := { self with connected := false, joinable := false }

/-- A read of the receiving thread. (boost_ipc.cpp:206-263) -/
def receive (self : Client) (chunk : List UInt8) : Option Client :=
  if !self.joinable then some self
  else (clientRead self.receiver chunk).map fun receiver => { self with receiver := receiver }

end Client

end TASQuake.Ipc
