import TASQuake.Lib.Memory
import TASQuake.Model.LoopNet

/-!
# The loopback driver is a bounded queue

Each socket holds, packed into its array, the messages that have been accepted for it and not yet
returned.  `Loop_SendUnreliableMessage` counts three bytes for a header that has four, so that it
also accepts a message that ends one byte behind the array.
-/

namespace TASQuake.LoopNet

open Lib Event Pair QSocket Nat UInt8 List

/-! ## Frames -/

theorem intAlign_mod (value : ℕ) : intAlign value % 4 = 0 := by
  unfold intAlign
  exact mul_mod_left _ _

theorem le_intAlign (value : ℕ) : value ≤ intAlign value := by
  unfold intAlign
  omega

theorem intAlign_add {offset : ℕ} (h : offset % 4 = 0) (value : ℕ) :
    intAlign (offset + value) = offset + intAlign value := by
  unfold intAlign
  omega

theorem intAlign_le {value bound : ℕ} (hvalue : value ≤ bound) (hbound : bound % 4 = 0) :
    intAlign value ≤ bound := by
  unfold intAlign
  omega

/-- The bytes of a message in the queue. -/
def IsFrame (msg : Message) (cells : List UInt8) : Prop :=
  cells.length = intAlign (msg.data.length + 4) ∧ msg.data.length < 2 ^ 16 ∧
    ∃ (type align : UInt8) (padding : List UInt8), type ≠ 0 ∧ msg.type = type.toNat ∧
      cells = type :: ofNat msg.data.length :: ofNat (msg.data.length / 2 ^ 8) :: align ::
        (msg.data ++ padding)

/-! ## The queue of one socket -/

namespace QSocket

/-- The bounds of the array are kept. -/
structure Bounded (sock : QSocket) : Prop where
  aligned : sock.receiveMessageLength % 4 = 0
  length_le : sock.receiveMessageLength ≤ netMaxMessage
  written_le : sock.written ≤ netMaxMessage

/-- The socket is connected and its array holds the messages. -/
structure Queues (sock : QSocket) (msgs : List Message) : Prop where
  connected : sock.driverdata = true
  bounded : sock.Bounded
  packed : Packed IsFrame sock.receiveMessage.bytes sock.receiveMessageLength msgs

variable {self : QSocket} {msg : Message} {msgs : List Message}

theorem queues_connected (receiveMessage : MessageBuffer) :
    (connected receiveMessage).Queues [] where
  connected := rfl
  bounded := ⟨rfl, zero_le _, zero_le _⟩
  packed := Packed.nil _ _

theorem Queues.canSend (h : self.Queues msgs) (canSend : Bool) :
    { self with canSend := canSend }.Queues msgs :=
  ⟨h.connected, ⟨h.bounded.aligned, h.bounded.length_le, h.bounded.written_le⟩, h.packed⟩

theorem slice_putMessage (type : UInt8) (data : List UInt8)
    (hroom : self.receiveMessageLength + 4 ≤ self.receiveMessage.bytes.length) :
    ∃ align, slice (self.putMessage type data).receiveMessage.bytes self.receiveMessageLength
        (4 + data.length) =
      type :: ofNat data.length :: ofNat (data.length / 2 ^ 8) :: align :: data := by
  set offset := self.receiveMessageLength
  set header := [type, ofNat data.length, ofNat (data.length / 2 ^ 8)]
  set first := self.receiveMessage.write offset header
  have hfirst : first.bytes.length = self.receiveMessage.bytes.length :=
    length_memcpy (by change offset + 3 ≤ _; omega)
  have hheader : slice (first.write (offset + 4) data).bytes offset 3 = header := by
    have hsame : slice (first.write (offset + 4) data).bytes offset 3 = slice first.bytes offset 3 :=
      slice_congr (take_memcpy (Nat.le_refl (offset + 4)) (by omega)) (by omega)
    rw [hsame]
    exact slice_memcpy_take (by omega) (Nat.le_refl 3)
  have hdata : slice (first.write (offset + 4) data).bytes (offset + 4) data.length = data := by
    have htake : slice (memcpy first.bytes (offset + 4) data) (offset + 4) data.length =
        data.take data.length := slice_memcpy_take (by omega) (Nat.le_refl data.length)
    rwa [take_length] at htake
  have halign : (slice (first.write (offset + 4) data).bytes (offset + 3) 1).length = 1 := by
    refine length_slice (Nat.le_trans ?_ (length_le_memcpy _ _ _))
    omega
  obtain ⟨align, halign⟩ := length_eq_one_iff.mp halign
  refine ⟨align, ?_⟩
  change slice (first.write (offset + 4) data).bytes offset (3 + 1 + data.length) = _
  rw [slice_add, slice_add, hheader, halign, hdata]
  rfl

theorem Queues.putMessage (h : self.Queues msgs) {type : UInt8} (htype : type ≠ 0)
    {data : List UInt8} (hfits : self.receiveMessageLength + data.length + 4 ≤ netMaxMessage) :
    (self.putMessage type data).Queues (msgs ++ [⟨type.toNat, data⟩]) := by
  have hbytes := self.receiveMessage.array_le
  have hlength : intAlign (self.receiveMessageLength + data.length + 4) =
      self.receiveMessageLength + intAlign (data.length + 4) := by
    rw [add_assoc, intAlign_add h.bounded.aligned]
  have hend : self.receiveMessageLength + intAlign (data.length + 4) ≤ netMaxMessage := by
    rw [← hlength]
    exact intAlign_le hfits rfl
  have hkept : (self.putMessage type data).receiveMessage.bytes.take self.receiveMessageLength =
      self.receiveMessage.bytes.take self.receiveMessageLength := by
    refine (take_memcpy (by omega) ?_).trans (take_memcpy (Nat.le_refl _) (by omega))
    exact Nat.le_trans (by omega) (length_le_memcpy _ _ _)
  have hroom := Nat.le_trans hend (self.putMessage type data).receiveMessage.array_le
  refine ⟨h.connected, ⟨intAlign_mod _, ?_, ?_⟩, ?_⟩
  · exact Nat.le_trans (Nat.le_of_eq hlength) hend
  · refine Nat.max_le.mpr ⟨h.bounded.written_le, ?_⟩
    split <;> omega
  · have hframe : IsFrame ⟨type.toNat, data⟩ (slice (self.putMessage type data).receiveMessage.bytes
        self.receiveMessageLength (intAlign (data.length + 4))) := by
      obtain ⟨align, hslice⟩ := slice_putMessage type data (Nat.le_trans (by omega) hbytes)
      obtain ⟨pad, hpad⟩ := Nat.exists_eq_add_of_le (le_intAlign (data.length + 4))
      have hsmall : data.length < 2 ^ 16 := by
        unfold netMaxMessage at hfits
        omega
      refine ⟨length_slice hroom, hsmall, type, align,
        slice (self.putMessage type data).receiveMessage.bytes
          (self.receiveMessageLength + (4 + data.length)) pad, htype, rfl, ?_⟩
      rw [hpad, add_comm data.length 4, slice_add, hslice]
      rfl
    have hpush := h.packed.push hkept hroom hframe
    rwa [← hlength] at hpush

theorem Queues.advance (h : self.Queues (msg :: msgs)) :
    self.receiveMessageLength ≠ 0 ∧ self.messageLength = msg.data.length ∧
      self.messageLength ≤ netMaxMessage ∧ (self.messageType.toNat : Int) = msg.type ∧
      msg.type ≠ 0 ∧ slice self.receiveMessage.bytes 4 self.messageLength = msg.data ∧
      (self.advance (intAlign (self.messageLength + 4))).Queues msgs := by
  obtain ⟨n, hn, hframe, hrest⟩ := h.packed.pop
  obtain ⟨hlength, hsmall, type, align, padding, htype, hmsg, hcells⟩ := hframe
  have hbytes : self.receiveMessage.bytes = type :: ofNat msg.data.length ::
      ofNat (msg.data.length / 2 ^ 8) :: align ::
        (msg.data ++ (padding ++ self.receiveMessage.bytes.drop n)) := by
    conv_lhs => rw [← take_append_drop n self.receiveMessage.bytes, hcells]
    simp
  have hmessage : self.messageLength = msg.data.length := by
    rw [messageLength, hbytes]
    simp only [toNat_ofNat']
    omega
  have hn' : n = intAlign (msg.data.length + 4) := by
    rw [← hlength, length_take]
    have := h.bounded.length_le
    have := self.receiveMessage.array_le
    omega
  have hle := le_intAlign (msg.data.length + 4)
  have hmax := h.bounded.length_le
  refine ⟨by omega, hmessage, by omega, ?_, ?_, ?_, ?_⟩
  · rw [messageType, hbytes, hmsg]
    rfl
  · rw [hmsg]
    intro hzero
    exact htype (UInt8.toNat_inj.mp (by simpa using hzero))
  · rw [hmessage, hbytes, slice]
    simp
  · rw [hmessage, ← hn']
    have hmoved : (self.advance n).receiveMessage.bytes.take (self.receiveMessageLength - n) =
        slice self.receiveMessage.bytes n (self.receiveMessageLength - n) := by
      have hlen : (slice self.receiveMessage.bytes n (self.receiveMessageLength - n)).length =
          self.receiveMessageLength - n :=
        length_slice (Nat.le_trans (by omega) self.receiveMessage.array_le)
      have htake := slice_memcpy_take (zero_le self.receiveMessage.bytes.length)
        (Nat.le_of_eq hlen.symm)
      rwa [take_of_length_le (Nat.le_of_eq hlen)] at htake
    refine ⟨h.connected, ⟨?_, ?_, ?_⟩, hrest _ ?_ hmoved⟩
    · have := h.bounded.aligned
      have := intAlign_mod (msg.data.length + 4)
      change (self.receiveMessageLength - n) % 4 = 0
      omega
    · change self.receiveMessageLength - n ≤ netMaxMessage
      omega
    · exact Nat.max_le.mpr ⟨h.bounded.written_le, by omega⟩
    · exact Nat.le_trans (by omega) (self.advance n).receiveMessage.array_le

end QSocket

/-! ## One call -/

theorem Side.peer_ne (side : Side) : side.peer ≠ side := by
  cases side <;> decide

theorem Side.eq_or_eq_peer (side other : Side) : other = side ∨ other = side.peer := by
  cases side <;> cases other <;> decide

namespace Pair

variable {net net' : Pair} {side : Side} {msgs : List Message}

@[simp] theorem sock_modify_self (net : Pair) (side : Side) (f : QSocket → QSocket) :
    (net.modify side f).sock side = f (net.sock side) := by
  cases side <;> rfl

theorem sock_modify_of_ne {side side' : Side} (h : side' ≠ side) (net : Pair)
    (f : QSocket → QSocket) : (net.modify side f).sock side' = net.sock side' := by
  cases side <;> cases side' <;> first | rfl | exact absurd rfl h

@[simp] theorem log_modify (net : Pair) (side : Side) (f : QSocket → QSocket) :
    (net.modify side f).log = net.log := by
  cases side <;> rfl

@[simp] theorem sock_record (net : Pair) (event : Event) (side : Side) :
    (net.record event).sock side = net.sock side := by
  cases side <;> rfl

theorem accepted_record (net : Pair) (event : Event) (side : Side) :
    (net.record event).accepted side = net.accepted side ++ (event.accepted? side).toList := by
  unfold accepted record
  rw [filterMap_append]
  cases h : event.accepted? side <;> simp [h]

theorem delivered_record (net : Pair) (event : Event) (side : Side) :
    (net.record event).delivered side = net.delivered side ++ (event.delivered? side).toList := by
  unfold delivered record
  rw [filterMap_append]
  cases h : event.delivered? side <;> simp [h]

/-- What has been accepted for a side and not yet returned is what its socket holds. -/
structure Pending (net : Pair) (side : Side) (msgs : List Message) : Prop where
  accepted_eq : net.accepted side = net.delivered side ++ msgs
  queues : (net.sock side).Queues msgs

/-- The end of a call: the messages it accepted and returned account for the change of the
queue. -/
theorem Pending.record (h : net.Pending side msgs) (hlog : net'.log = net.log) {event : Event}
    {msgs' : List Message}
    (hmsgs : msgs ++ (event.accepted? side).toList = (event.delivered? side).toList ++ msgs')
    (hqueues : (net'.sock side).Queues msgs') : (net'.record event).Pending side msgs' := by
  refine ⟨?_, by rwa [sock_record]⟩
  have hacc : net'.accepted side = net.accepted side := congrArg (filterMap _) hlog
  have hdel : net'.delivered side = net.delivered side := congrArg (filterMap _) hlog
  rw [accepted_record, delivered_record, hacc, hdel, h.accepted_eq, append_assoc, hmsgs,
    append_assoc]

theorem getMessage_of_nil (h : (net.sock side).Queues []) :
    net.getMessage side = some (net.record ⟨.getMessage side, 0, []⟩) := by
  have hzero : (net.sock side).receiveMessageLength = 0 := by
    obtain ⟨hle, frames, hframes, hall⟩ := h.packed
    cases hall
    rw [flatten_nil, take_eq_nil_iff] at hframes
    rcases hframes with hzero | hbytes
    · exact hzero
    · rw [hbytes] at hle
      exact le_zero.mp hle
  unfold getMessage
  rw [if_pos hzero]

theorem getMessage_of_cons {msg : Message} (h : (net.sock side).Queues (msg :: msgs)) :
    ∃ net' : Pair, net.getMessage side = some (net'.record ⟨.getMessage side, msg.type, msg.data⟩) ∧
      net'.log = net.log ∧ (net'.sock side).Queues msgs ∧
      ∀ msgs', (net.sock side.peer).Queues msgs' → (net'.sock side.peer).Queues msgs' := by
  obtain ⟨hne, -, hmax, htype, -, hdata, hqueues⟩ := h.advance
  have hpeer := side.peer_ne
  unfold getMessage
  rw [if_neg hne, if_neg (Nat.not_lt.mpr hmax)]
  simp only [htype, hdata]
  refine ⟨_, rfl, ?_, ?_, ?_⟩
  · split <;> simp
  · split
    · rw [sock_modify_of_ne hpeer.symm, sock_modify_self]
      exact hqueues
    · rw [sock_modify_self]
      exact hqueues
  · intro msgs' hmsgs'
    split
    · rw [sock_modify_self, sock_modify_of_ne hpeer]
      exact hmsgs'.canSend true
    · rwa [sock_modify_of_ne hpeer]

theorem pending_putMessage {sender : Side} (h : net.Pending sender.peer msgs) {type : UInt8}
    (htype : type ≠ 0) {data : List UInt8}
    (hfits : (net.sock sender.peer).receiveMessageLength + data.length + 4 ≤ netMaxMessage)
    (hlog : net'.log = net.log)
    (hsock : net'.sock sender.peer = (net.sock sender.peer).putMessage type data) {event : Event}
    (haccepted : event.accepted? sender.peer = some ⟨type.toNat, data⟩)
    (hdelivered : event.delivered? sender.peer = none) :
    (net'.record event).Pending sender.peer (msgs ++ [⟨type.toNat, data⟩]) := by
  refine h.record hlog ?_ ?_
  · rw [haccepted, hdelivered]
    rfl
  · rw [hsock]
    exact h.queues.putMessage htype hfits

/-- The queues of both sides are in order. -/
def Sound (net : Pair) : Prop := ∀ side, ∃ msgs, net.Pending side msgs

theorem sound_of_sides (side : Side) (h : ∃ msgs, net.Pending side msgs)
    (hpeer : ∃ msgs, net.Pending side.peer msgs) : net.Sound := by
  intro other
  rcases side.eq_or_eq_peer other with rfl | rfl
  · exact h
  · exact hpeer

theorem Sound.connected (h : net.Sound) (side : Side) : (net.sock side).driverdata = true := by
  obtain ⟨msgs, hmsgs⟩ := h side
  exact hmsgs.queues.connected

theorem sound_getMessage (h : net.Sound) (hcall : net.getMessage side = some net') : net'.Sound := by
  obtain ⟨msgs, hmsgs⟩ := h side
  obtain ⟨others, hothers⟩ := h side.peer
  have hpeer := side.peer_ne
  cases msgs with
  | nil =>
    rw [getMessage_of_nil hmsgs.queues] at hcall
    cases hcall
    refine sound_of_sides side ⟨[], hmsgs.record rfl ?_ hmsgs.queues⟩
      ⟨others, hothers.record rfl ?_ hothers.queues⟩
    · simp [accepted?, delivered?]
    · simp [accepted?, delivered?]
  | cons msg msgs =>
    obtain ⟨next, hnext, hlog, hqueues, hkept⟩ := getMessage_of_cons hmsgs.queues
    obtain ⟨-, -, -, -, htype, -, -⟩ := hmsgs.queues.advance
    rw [hnext] at hcall
    cases hcall
    refine sound_of_sides side ⟨msgs, hmsgs.record hlog ?_ hqueues⟩
      ⟨others, hothers.record hlog ?_ (hkept others hothers.queues)⟩
    · simp [accepted?, delivered?, htype]
    · simp [accepted?, delivered?, hpeer.symm]

theorem sound_sendMessage (h : net.Sound) {data : List UInt8}
    (hcall : net.sendMessage side data = some net') : net'.Sound := by
  obtain ⟨msgs, hmsgs⟩ := h side
  obtain ⟨others, hothers⟩ := h side.peer
  have hpeer := side.peer_ne
  unfold sendMessage at hcall
  rw [if_neg (not_not_intro (h.connected side))] at hcall
  split at hcall
  · cases hcall
  rename_i hfits
  cases hcall
  refine sound_of_sides side ⟨msgs, hmsgs.record (by simp) ?_ ?_⟩
    ⟨_, pending_putMessage hothers (by decide : (1 : UInt8) ≠ 0) (Nat.not_lt.mp hfits) (by simp)
      ?_ ?_ ?_⟩
  · simp [accepted?, delivered?, hpeer]
  · rw [sock_modify_self, sock_modify_of_ne hpeer.symm]
    exact hmsgs.queues.canSend false
  · rw [sock_modify_of_ne hpeer, sock_modify_self]
  · simp [accepted?]
  · simp [delivered?]

theorem sound_sendUnreliableMessage (h : net.Sound) {data : List UInt8}
    (hfill : (net.sock side.peer).receiveMessageLength + data.length ≠ netMaxMessage - 3) :
    (net.sendUnreliableMessage side data).Sound := by
  obtain ⟨msgs, hmsgs⟩ := h side
  obtain ⟨others, hothers⟩ := h side.peer
  have hpeer := side.peer_ne
  unfold sendUnreliableMessage
  rw [if_neg (not_not_intro (h.connected side))]
  split
  · refine sound_of_sides side ⟨msgs, hmsgs.record rfl ?_ hmsgs.queues⟩
      ⟨others, hothers.record rfl ?_ hothers.queues⟩
    · simp [accepted?, delivered?]
    · simp [accepted?, delivered?]
  · rename_i hcheck
    -- the check counts three bytes for the header, so it leaves one case to `hfill`
    have hfits : (net.sock side.peer).receiveMessageLength + data.length + 4 ≤ netMaxMessage := by
      unfold netMaxMessage at hcheck hfill ⊢
      omega
    refine sound_of_sides side ⟨msgs, hmsgs.record (by simp) ?_ ?_⟩
      ⟨_, pending_putMessage hothers (by decide : (2 : UInt8) ≠ 0) hfits (by simp) ?_ ?_ ?_⟩
    · simp [accepted?, delivered?, hpeer]
    · rw [sock_modify_of_ne hpeer.symm]
      exact hmsgs.queues
    · rw [sock_modify_self]
    · simp [accepted?]
    · simp [delivered?]

/-! ## All calls -/

/-- An unreliable message does not end exactly one byte behind the array. -/
def Fits (net : Pair) : Action → Prop
  | .sendUnreliableMessage side data =>
    (net.sock side.peer).receiveMessageLength + data.length ≠ netMaxMessage - 3
  | _ => True

instance (net : Pair) (action : Action) : Decidable (net.Fits action) := by
  unfold Fits
  cases action <;> infer_instance

theorem sound_step {action : Action} (h : net.Sound) (hfits : net.Fits action)
    (hstep : net.step action = some net') : net'.Sound := by
  cases action with
  | sendMessage side data => exact sound_sendMessage h hstep
  | sendUnreliableMessage side data =>
    cases hstep
    exact sound_sendUnreliableMessage h hfits
  | getMessage side => exact sound_getMessage h hstep

theorem sound_connected (client server : MessageBuffer) : (connected client server).Sound := by
  intro side
  refine ⟨[], rfl, ?_⟩
  cases side
  · exact queues_connected client
  · exact queues_connected server

/-- The calls of `Loop_GetMessage` on a side from now on return the messages one after the
other with their types, and then nothing. -/
def Yields (side : Side) : Pair → List Message → Prop
  | net, [] => net.getMessage side = some (net.record ⟨.getMessage side, 0, []⟩)
  | net, msg :: msgs =>
    ∃ net', net.getMessage side = some net' ∧
      net'.log = net.log ++ [⟨.getMessage side, msg.type, msg.data⟩] ∧ Yields side net' msgs

theorem yields_of_queues (h : (net.sock side).Queues msgs) : Yields side net msgs := by
  induction msgs generalizing net with
  | nil => exact getMessage_of_nil h
  | cons msg msgs ih =>
    obtain ⟨next, hnext, hlog, hqueues, -⟩ := getMessage_of_cons h
    refine ⟨_, hnext, congrArg (· ++ _) hlog, ih ?_⟩
    rwa [sock_record]

end Pair

/-- In every run in which no unreliable message ends exactly one byte behind the array, the bounds
of both arrays are kept, and what `Loop_GetMessage` has returned on a side, followed by what it
returns from there on, are the messages accepted for that side. -/
theorem loopback_is_bounded_fifo (client server : MessageBuffer) {calls : List Action} {net : Pair}
    (hfits : Guarded step Pair.Fits (connected client server) calls)
    (hrun : run step (connected client server) calls = some net) (side : Side) :
    (net.sock side).Bounded ∧
      ∃ pending, net.accepted side = net.delivered side ++ pending ∧
        Pair.Yields side net pending := by
  have hsound : net.Sound :=
    invariant_run (fun _ _ _ => sound_step) (sound_connected client server) hfits hrun
  obtain ⟨pending, hpending⟩ := hsound side
  exact ⟨hpending.queues.bounded, pending, hpending.accepted_eq, yields_of_queues hpending.queues⟩

/-- An array of zeros with nothing behind it. -/
def zeroBuffer : MessageBuffer where
  bytes := replicate netMaxMessage 0
  array_le := Nat.le_of_eq length_replicate.symm

theorem loopback_is_bounded_fifo_of_two_messages :
    ∃ net, run step (connected zeroBuffer zeroBuffer)
        [.sendMessage .client [7], .sendUnreliableMessage .client [1, 2], .getMessage .server] =
          some net ∧
      (net.sock .server).Bounded ∧
      ∃ pending, net.accepted .server = net.delivered .server ++ pending ∧
        Pair.Yields .server net pending := by
  obtain ⟨net, hrun⟩ : ∃ net, run step (connected zeroBuffer zeroBuffer)
      [.sendMessage .client [7], .sendUnreliableMessage .client [1, 2], .getMessage .server] =
        some net := ⟨_, rfl⟩
  refine ⟨net, hrun, loopback_is_bounded_fifo zeroBuffer zeroBuffer ?_ hrun .server⟩
  refine guarded_cons trivial rfl (guarded_cons ?_ rfl (guarded_cons trivial rfl trivial))
  decide

theorem Pair.overflow_of_sendUnreliableMessage {net : Pair} {side : Side} {data : List UInt8}
    (hconnected : (net.sock side).driverdata = true) (hdata : data ≠ [])
    (hfill : (net.sock side.peer).receiveMessageLength + data.length = netMaxMessage - 3) :
    let receiver := (net.sendUnreliableMessage side data).sock side.peer
    receiver.receiveMessageLength = netMaxMessage + 4 ∧ netMaxMessage < receiver.written := by
  unfold netMaxMessage at hfill
  have hsock : (net.sendUnreliableMessage side data).sock side.peer =
      (net.sock side.peer).putMessage 2 data := by
    unfold sendUnreliableMessage
    rw [if_neg (not_not_intro hconnected), if_neg (by unfold netMaxMessage; omega), sock_record,
      sock_modify_self]
  rw [hsock]
  constructor
  · change intAlign ((net.sock side.peer).receiveMessageLength + data.length + 4) = _
    rw [hfill]
    rfl
  · refine Nat.lt_of_lt_of_le ?_ (Nat.le_max_right _ _)
    rw [if_neg hdata]
    unfold netMaxMessage
    omega

/-- A reliable message of 8184 bytes fills the array of the server up to its last four bytes.  The
byte of the unreliable message that follows is the first one behind the array. -/
theorem unreliable_message_overflows :
    ∃ net, run step (connected zeroBuffer zeroBuffer)
        [.sendMessage .client (replicate 8184 0), .sendUnreliableMessage .client [1]] =
          some net ∧
      (net.sock .server).receiveMessageLength = netMaxMessage + 4 ∧
      netMaxMessage < (net.sock .server).written := by
  generalize hdata : replicate 8184 (0 : UInt8) = data
  have hlength : data.length = 8184 := by rw [← hdata, length_replicate]
  have hsend : (connected zeroBuffer zeroBuffer).sendMessage .client data =
      some ((((connected zeroBuffer zeroBuffer).modify .server fun peer =>
        peer.putMessage 1 data).modify .client fun sock => { sock with canSend := false }).record
          ⟨.sendMessage .client data, 1, []⟩) := by
    unfold sendMessage
    rw [if_neg (by decide), if_neg ?_]
    · rfl
    · change ¬ (0 + data.length + 4 > netMaxMessage)
      rw [hlength]
      decide
  refine ⟨_, run_cons_eq_some.mpr ⟨_, hsend, rfl⟩, overflow_of_sendUnreliableMessage ?_ ?_ ?_⟩
  · rfl
  · exact cons_ne_nil _ _
  · change intAlign (0 + data.length + 4) + 1 = netMaxMessage - 3
    rw [hlength]
    rfl

end TASQuake.LoopNet
