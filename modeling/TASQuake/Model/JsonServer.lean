import TASQuake.Model.Script

/-!
# The JSON server

`ipc::IPCServer` (ipc.hpp, ipc.cpp:132-175, 218-354): messages are read from a socket, sorted into
one queue for each type, and handed to callbacks.

What the socket does is an argument of the functions that use it, and so is `nlohmann::json`
(`JsonOps`).  The calls of callbacks and the texts printed are collected.  Time is the number of
times that `BlockForMessages` reads.  The maps are unordered in the source; here the loop over the
queues takes them in the order in which they were made.
-/

namespace TASQuake

open Lib

/-- What `msg["type"]` comes to; a value that is no string throws. -/
inductive TypeField where
  | missing
  | noString (what : Str)
  | string (type : Str)
deriving DecidableEq

/-- `nlohmann::json`. -/
structure JsonOps (J : Type) where
  /-- `nlohmann::json::parse`, or the text of its exception -/
  parse : Str → Except Str J
  typeField : J → TypeField

/-- What `recv` returns: one byte or more, the end of the connection, that there is nothing to read,
or another error. -/
inductive RecvResult where
  | data (bytes : Str)
  | closed
  | wouldBlock
  | failed
deriving DecidableEq

/-- What `ReadMessages` finds: `DataAvailable`, and the results of `recv`. -/
structure ReadOutcome where
  available : Bool
  results : List RecvResult
deriving DecidableEq

/-- A call of a callback. -/
structure Handed (C J : Type) where
  type : Str
  callback : C
  msg : J
deriving DecidableEq

/-- `IPCServer`. -/
structure IPCServer (C J : Type) where
  /-- `clientSocket != SOCKET_ERROR` -/
  connected : Bool := false
  callbacks : OrderedMap Str C := .empty
  blockingMap : OrderedMap Str Bool := .empty
  msgQueue : OrderedMap Str (List J) := .empty
  handed : List (Handed C J) := []
  printed : List Str := []

namespace IPCServer

variable {C J : Type}

/-- `BUFLEN`. -/
def bufLen : ℕ := 32767

/-- `ipc::Print`. (ipc.cpp:356-369) -/
def print (self : IPCServer C J) (text : Str) : IPCServer C J :=
  { self with printed := self.printed ++ [text.take 254] }

/-- `IPCServer::AddCallback`. (ipc.cpp:170-175) -/
def addCallback (self : IPCServer C J) (type : Str) (callback : C) (blocking : Bool) :
    IPCServer C J :=
  { self with
    callbacks := self.callbacks.put type callback
    blockingMap := self.blockingMap.put type blocking
    msgQueue := self.msgQueue.put type [] }

/-! ## Reading -/

/-- The loop over `recv`: whether the client is still there, and the bytes of the buffer up to
`offset`. (ipc.cpp:225-247) -/
def recvLoop : List RecvResult → Str → Bool × Str
  | [], buffer => (true, buffer)
  | .data bytes :: rest, buffer =>
    let buffer := buffer ++ bytes.take (bufLen - buffer.length)
    if buffer.length < bufLen then recvLoop rest buffer else (true, buffer)
  | .closed :: _, buffer => (false, buffer)
  | .wouldBlock :: _, buffer => (true, buffer)
  | .failed :: _, buffer => (false, buffer)

/-- The client is gone. (ipc.cpp:236-237, 244-245) -/
def disconnect (self : IPCServer C J) : IPCServer C J :=
  { self with connected := false }.print (str "Client disconnected, closing socket.\n")

/-- What is done with the text of a message. (ipc.cpp:256-283) -/
def receive (json : JsonOps J) (self : IPCServer C J) (text : Str) : IPCServer C J :=
  match json.parse text with
  | .error what => self.print (str "Error parsing message: " ++ what ++ str "\n")
  | .ok msg =>
    match json.typeField msg with
    | .missing => self.print (str "Bad message received.\n")
    | .noString what => self.print (str "Error parsing message: " ++ what ++ str "\n")
    | .string type =>
      if !self.callbacks.contains type then
        self.print (str "No callback for message type " ++ type ++ str "\n")
      else
        let queue := self.msgQueue.touch type []
        { self with msgQueue := queue.put type ((queue.find? type).getD [] ++ [msg]) }

/-- The loop over the bytes that have been read; the second argument is the text from `startIndex`
on.  A text that is not ended by a null character is dropped. (ipc.cpp:249-286) -/
def scan (json : JsonOps J) : Str → Str → IPCServer C J → IPCServer C J
  | [], _, self => self
  | c :: rest, text, self =>
    if c = 0 then scan json rest [] (self.receive json text)
    else scan json rest (text ++ [c]) self

/-- `IPCServer::ReadMessages`. (ipc.cpp:218-288) -/
def readMessages (json : JsonOps J) (self : IPCServer C J) (outcome : ReadOutcome) :
    IPCServer C J :=
  if !self.connected || !outcome.available then self
  else
    match recvLoop outcome.results [] with
    | (false, _) => self.disconnect -- what has been read is not looked at
    | (true, buffer) => scan json buffer [] self

/-! ## Dispatching -/

/-- `DispatchMessages(type)`, for a type that has a queue. (ipc.cpp:342-354) -/
def dispatch (self : IPCServer C J) (type : Str) : IPCServer C J :=
  match self.msgQueue.find? type with
  | none => self
  | some vec =>
    { self with
      handed :=
        match self.callbacks.find? type with
        | some callback => self.handed ++ vec.map fun item => ⟨type, callback, item⟩
        | none => self.handed
      msgQueue := self.msgQueue.put type [] }

/-- The body of the loop of `DispatchMessages()`. -/
def dispatchIfDue (self : IPCServer C J) (type : Str) : IPCServer C J :=
  let self := { self with blockingMap := self.blockingMap.touch type false }
  if !(self.blockingMap.find? type).getD false && !((self.msgQueue.find? type).getD []).isEmpty then
    self.dispatch type
  else self

/-- `DispatchMessages()`. (ipc.cpp:333-340) -/
def dispatchMessages (self : IPCServer C J) : IPCServer C J :=
  (self.msgQueue.values.map Prod.fst).foldl dispatchIfDue self

/-- `CheckForConnections`; `accepts` is whether there is a client to accept. (ipc.cpp:290-331) -/
def checkForConnections (self : IPCServer C J) (accepts : Bool) : IPCServer C J :=
  if !self.connected && accepts then { self with connected := true }.print (str "Got client\n")
  else self

/-- `IPCServer::Loop`. (ipc.cpp:132-137) -/
def loop (json : JsonOps J) (self : IPCServer C J) (accepts : Bool) (outcome : ReadOutcome) :
    IPCServer C J :=
  ((self.checkForConnections accepts).readMessages json outcome).dispatchMessages

/-- The loop of `BlockForMessages`, which goes on until the queue has a message or time is up.
(ipc.cpp:150-155) -/
def blockLoop (json : JsonOps J) (type : Str) : List ReadOutcome → IPCServer C J → IPCServer C J
  | [], self => self
  | outcome :: later, self =>
    if ((self.msgQueue.find? type).getD []).isEmpty then
      blockLoop json type later (self.readMessages json outcome)
    else self

/-- `IPCServer::BlockForMessages`. (ipc.cpp:139-168) -/
def blockForMessages (json : JsonOps J) (self : IPCServer C J) (type : Str) (first : ReadOutcome)
    (later : List ReadOutcome) : Bool × IPCServer C J :=
  if self.msgQueue.contains type then
    let self := blockLoop json type later (self.readMessages json first)
    (!((self.msgQueue.find? type).getD []).isEmpty, self.dispatch type)
  else (false, self.print (str "Message type has no callback!\n"))

end IPCServer

end TASQuake
