import TASQuake.Analysis.IpcFraming
import TASQuake.Model.IpcEndpoints

/-!
# Reconnecting

The receiving state lives in the client object and is not reset by `connect` or `disconnect`.  A
client that was cut off inside a message takes the first bytes of its next connection for the rest
of that message; otherwise the stream is read as by a new client (`Same`).
-/

namespace TASQuake.Analysis.ClientReconnect

open Lib Ipc Ipc.Receiver IpcFraming Receiver Ipc.Client List

/-! ## Histories and streams -/

/-- What happens to a client object. -/
inductive Action where
  | connect (reached : Bool)
  | receive (chunk : List UInt8)
  | disconnect
deriving DecidableEq

def step (c : Ipc.Client) : Action → Option Ipc.Client
  | .connect reached => c.connect reached
  | .receive chunk => c.receive chunk
  | .disconnect => some c.disconnect

/-- The messages that are complete after `n` bytes of their stream. -/
def completed : List (List UInt8) → ℕ → List (List UInt8)
  | [], _ => []
  | msg :: msgs, n =>
    if n < 4 + msg.length then [] else msg :: completed msgs (n - (4 + msg.length))

/-- The chunks received on a connection on which the server sends `msgs`; it may end at any byte of
the stream. -/
structure Stream (msgs chunks : List (List UInt8)) : Prop where
  sent : chunks.flatten <+: msgs.flatMap sendMessage
  whole : StartsWhole msgs 0 chunks

/-- A client that connects appends to its messages those that are complete. -/
def Receives (c : Ipc.Client) (msgs chunks : List (List UInt8)) : Prop :=
  ∃ c', run step c (.connect true :: chunks.map .receive) = some c' ∧
    c'.receiver.messages =
      c.receiver.messages ++ (completed msgs chunks.flatten.length).map (tagged 0)

theorem messages_stateAt (connectionId : ℕ) {msgs : List (List UInt8)} (hmsgs : Deliverable msgs)
    (done : List Message) (n : ℕ) :
    (stateAt connectionId done msgs n).messages =
      done ++ (completed msgs n).map (tagged connectionId) := by
  rw [← receiverAt_eq_stateAt connectionId hmsgs]
  clear hmsgs
  induction msgs generalizing done n with
  | nil => exact (append_nil done).symm
  | cons msg msgs ih =>
    unfold receiverAt completed
    by_cases hlong : n < 4 + msg.length
    · rw [if_pos hlong, if_pos hlong, map_nil, append_nil]
      split <;> rfl
    · rw [if_neg hlong, if_neg hlong, if_neg (by omega), ih, append_assoc]
      rfl

/-! ## A state between two messages -/

/-- Two receivers that differ at most in the remains of a message that is finished. -/
structure Same (r r' : Receiver) : Prop where
  messages : r.messages = r'.messages
  bytesWritten : r.bytesWritten = r'.bytesWritten
  length : r.currentMessage.length = r'.currentMessage.length
  current : r.currentMessage.length ≠ 0 → r.currentMessage = r'.currentMessage

variable {r : Receiver}

theorem Same.rfl : Same r r := ⟨Eq.refl _, Eq.refl _, Eq.refl _, fun _ => Eq.refl _⟩

theorem same_idle (h : Valid r) (hidle : r.currentMessage.length = 0) : Same r (idle r.messages) :=
  ⟨Eq.refl _, h.idle hidle, hidle, fun hne => absurd hidle hne⟩

variable {r' : Receiver}

theorem Same.eq (h : Same r r') (hne : r.currentMessage.length ≠ 0) : r = r' := by
  obtain ⟨current, written, messages⟩ := r
  obtain ⟨current', written', messages'⟩ := r'
  obtain ⟨hmessages, hwritten, -, hcurrent⟩ := h
  cases hmessages
  cases hwritten
  cases hcurrent hne
  exact Eq.refl _

theorem Same.readHeader (h : Same r r') (connectionId : ℕ) (buffer : List UInt8) :
    r.readHeader connectionId buffer = r'.readHeader connectionId buffer := by
  unfold Receiver.readHeader
  rw [h.messages, h.bytesWritten]

theorem Same.rel_refl (x : Option Receiver) : Option.Rel Same x x := by
  cases x with
  | none => exact .none
  | some r => exact .some Same.rfl

theorem Same.doRead (h : Same r r') (connectionId : ℕ) (chunk : List UInt8) :
    Option.Rel Same (doRead connectionId r chunk) (doRead connectionId r' chunk) := by
  by_cases hne : r.currentMessage.length = 0
  · cases chunk with
    | nil => exact .some h
    | cons byte rest =>
      unfold Receiver.doRead readLoop
      simp only [← h.length, hne, if_true]
      split
      · exact .some h
      · rw [h.readHeader]
        exact Same.rel_refl _
  · rw [h.eq hne]
    exact Same.rel_refl _

/-! ## Messages that are delivered -/

/-- Only messages of at most `MAX_BYTES` are stored and delivered. -/
structure Bounded (r : Receiver) : Prop where
  delivered : ∀ m ∈ r.messages, m.length ≤ maxBytes
  stored : r.currentMessage.address.isSome → r.currentMessage.length ≤ maxBytes

theorem bounded_init : Bounded {} :=
  ⟨fun _ hm => absurd hm not_mem_nil, fun hsome => absurd hsome Bool.false_ne_true⟩

theorem Bounded.readHeader (h : Bounded r) (connectionId : ℕ) (buffer : List UInt8) :
    Bounded (r.readHeader connectionId buffer) := by
  refine ⟨h.delivered, fun hsome => ?_⟩
  unfold Receiver.readHeader at hsome ⊢
  simp only at hsome ⊢
  by_contra hlong
  rw [if_pos (not_le.mp hlong)] at hsome
  cases hsome

variable {buffer : List UInt8}

theorem Bounded.readBody {rest : List UInt8} (h : Bounded r)
    (hr : r.readBody buffer = some (r', rest)) : Bounded r' := by
  have hfill : (r.fill buffer).address.isSome → (r.fill buffer).length ≤ maxBytes := by
    intro hsome
    refine h.stored ?_
    unfold fill at hsome
    simpa using hsome
  unfold Receiver.readBody at hr
  simp only at hr
  split at hr
  · cases hr
    refine ⟨fun m hm => ?_, fun hsome => absurd hsome Bool.false_ne_true⟩
    unfold deliver at hm
    simp only at hm
    split at hm
    · next hsome =>
      rcases mem_append.mp hm with hm | hm
      · exact h.delivered m hm
      · rw [mem_singleton.mp hm]
        exact hfill hsome
    · exact h.delivered m hm
  · split at hr
    · cases hr
    · cases hr
      exact ⟨h.delivered, hfill⟩

theorem Bounded.readLoop {connectionId fuel : ℕ} (h : Bounded r)
    (hr : readLoop connectionId fuel r buffer = some r') : Bounded r' := by
  induction fuel generalizing r buffer with
  | zero =>
    cases buffer with
    | nil =>
      cases hr
      exact h
    | cons byte rest => cases hr
  | succ fuel ih =>
    cases buffer with
    | nil =>
      cases hr
      exact h
    | cons byte rest =>
      unfold readLoop at hr
      simp only at hr
      split at hr
      · split at hr
        · cases hr
          exact h
        · exact ih (h.readHeader connectionId (byte :: rest)) hr
      · split at hr
        · cases hr
        · next hbody => exact ih (h.readBody hbody) hr

/-! ## Runs of a client -/

/-- What holds of the receiver of a client at every time. -/
structure Good (c : Ipc.Client) : Prop where
  valid : Valid c.receiver
  bounded : Bounded c.receiver

variable {c : Ipc.Client}

theorem Good.receive (h : Good c) (hjoin : c.joinable = true) (chunk : List UInt8) :
    ∃ r, clientRead c.receiver chunk = some r ∧ c.receive chunk = some { c with receiver := r } ∧
      Good { c with receiver := r } := by
  obtain ⟨r, hr, hvalid, -⟩ := h.valid.readLoop 0 (Nat.le_succ chunk.length)
  have hread : clientRead c.receiver chunk = some r := hr
  refine ⟨r, hread, ?_, hvalid, h.bounded.readLoop hr⟩
  unfold Ipc.Client.receive
  rw [hjoin, hread]
  rfl

theorem Good.step (c : Ipc.Client) (a : Action) (c' : Ipc.Client) (h : Good c)
    (hs : step c a = some c') : Good c' := by
  cases a with
  | connect reached =>
    change c.connect reached = some c' at hs
    unfold connect at hs
    split at hs
    · cases hs
      exact h
    · split at hs
      · cases hs
      · cases hs
        exact ⟨h.valid, h.bounded⟩
  | receive chunk =>
    by_cases hjoin : c.joinable = true
    · obtain ⟨r, -, hreceive, hgood⟩ := h.receive hjoin chunk
      cases hreceive.symm.trans hs
      exact hgood
    · change c.receive chunk = some c' at hs
      unfold Ipc.Client.receive at hs
      rw [if_pos (by simpa using hjoin)] at hs
      cases hs
      exact h
  | disconnect =>
    cases hs
    exact ⟨h.valid, h.bounded⟩

theorem good_run {history : List Action} (h : run step {} history = some c) : Good c :=
  invariant_run (I := Good) (fun c a c' hgood _ => Good.step c a c' hgood)
    ⟨valid_init, bounded_init⟩ (guarded_of_forall fun _ _ => trivial) h

theorem run_receive (h : Good c) (hjoin : c.joinable = true) (chunks : List (List UInt8)) :
    ∃ r, run (doRead 0) c.receiver chunks = some r ∧
      run step c (chunks.map .receive) = some { c with receiver := r } ∧
      Good { c with receiver := r } := by
  induction chunks generalizing c with
  | nil => exact ⟨c.receiver, rfl, rfl, h⟩
  | cons chunk chunks ih =>
    obtain ⟨r, hread, hreceive, hgood⟩ := h.receive hjoin chunk
    obtain ⟨r', hrun, hrun', hgood'⟩ := ih hgood hjoin
    exact ⟨r', run_cons_eq_some.mpr ⟨r, hread, hrun⟩,
      run_cons_eq_some.mpr ⟨_, hreceive, hrun'⟩, hgood'⟩

theorem run_connect (h : Good c) (hoff : c.joinable = false) (chunks : List (List UInt8)) :
    ∃ r, run (doRead 0) c.receiver chunks = some r ∧ Bounded r ∧ Valid r ∧
      run step c (.connect true :: chunks.map .receive) =
        some { receiver := r, connected := true, joinable := true } := by
  have hconnect : c.connect true = some { c with connected := true, joinable := true } := by
    unfold connect
    rw [hoff]
    rfl
  obtain ⟨r, hrun, hrun', hgood⟩ := run_receive
    (c := { c with connected := true, joinable := true }) ⟨h.valid, h.bounded⟩ rfl chunks
  exact ⟨r, hrun, hgood.bounded, hgood.valid, run_cons_eq_some.mpr ⟨_, hconnect, hrun'⟩⟩

theorem receives_iff (h : Good c) (hoff : c.joinable = false) (msgs chunks : List (List UInt8)) :
    Receives c msgs chunks ↔ ∃ r, run (doRead 0) c.receiver chunks = some r ∧
      r.messages = c.receiver.messages ++ (completed msgs chunks.flatten.length).map (tagged 0) := by
  obtain ⟨r, hread, -, -, hrun⟩ := run_connect h hoff chunks
  constructor
  · rintro ⟨c', hc', hmessages⟩
    cases hrun.symm.trans hc'
    exact ⟨r, hread, hmessages⟩
  · rintro ⟨r', hr', hmessages⟩
    cases hread.symm.trans hr'
    exact ⟨_, hrun, hmessages⟩

/-! ## The first bytes of a connection -/

theorem receives_of_idle (h : Good c) (hoff : c.joinable = false)
    (hidle : c.receiver.currentMessage.length = 0) {msgs chunks : List (List UInt8)}
    (hmsgs : Deliverable msgs) (hstream : Stream msgs chunks) : Receives c msgs chunks := by
  rw [receives_iff h hoff]
  obtain ⟨rest, hsent⟩ := hstream.sent
  rw [flatMap_sendMessage fun msg hmsg => (hmsgs msg hmsg).2] at hsent
  have hrun := run_of_startsWhole 0 c.receiver.messages hmsgs.framable
    (show chunks.flatten ++ rest = (frames msgs).drop 0 from hsent) hstream.whole
  rw [stateAt_zero, Nat.zero_add] at hrun
  have hrel := rel_run (fun r r' chunk hsame => Same.doRead hsame 0 chunk)
    (same_idle h.valid hidle) chunks
  rw [hrun] at hrel
  generalize hread : run (doRead 0) c.receiver chunks = result at hrel
  cases hrel with
  | some hsame =>
    refine ⟨_, rfl, ?_⟩
    rw [hsame.messages, messages_stateAt 0 hmsgs]

theorem messages_readLoop_idle (hidle : r.currentMessage.length = 0) {fuel : ℕ}
    (hlen : buffer.length ≤ 4) :
    ∃ r', readLoop 0 (fuel + 1) r buffer = some r' ∧ r'.messages = r.messages := by
  cases buffer with
  | nil => exact ⟨r, rfl, rfl⟩
  | cons byte rest =>
    unfold readLoop
    simp only [hidle, if_true]
    split
    · exact ⟨r, rfl, rfl⟩
    · rw [drop_eq_nil_of_le hlen]
      exact ⟨r.readHeader 0 (byte :: rest), by cases fuel <;> rfl, rfl⟩

theorem fill_ne_tagged (hwritten : r.bytesWritten < r.currentMessage.length) :
    r.fill [1, 0, 0, 0, 0] ≠ tagged 0 [0] := by
  intro heq
  have hone : r.currentMessage.length = 1 := congrArg Message.length heq
  have hzero : r.bytesWritten = 0 := by omega
  have hread : r.bytesToRead [1, 0, 0, 0, 0] = 1 := by
    unfold bytesToRead
    rw [hone, hzero]
    rfl
  have haddress : r.currentMessage.address.map
      (fun block => memcpy block r.bytesWritten ([1, 0, 0, 0, 0].take (r.bytesToRead [1, 0, 0, 0, 0]))) =
        some [0] := congrArg Message.address heq
  obtain ⟨block, -, hblock⟩ := Option.map_eq_some_iff.mp haddress
  rw [hread, hzero] at hblock
  have hfirst : (1 : UInt8) = 0 := (cons.inj hblock).1
  exact absurd hfirst (by decide)

theorem not_receives_of_unfinished (h : Good c) (hoff : c.joinable = false)
    (hbusy : c.receiver.currentMessage.length ≠ 0) : ¬ Receives c [[0]] [[1, 0, 0, 0, 0]] := by
  rw [receives_iff h hoff]
  rintro ⟨r, hrun, hmessages⟩
  obtain ⟨r, hread, ⟨⟩⟩ := run_cons_eq_some.mp hrun
  have hmessages := hmessages
  have hwritten := h.valid.reading hbusy
  generalize c.receiver = old at hbusy hread hmessages hwritten
  have hbytes : old.bytesToRead [1, 0, 0, 0, 0] =
      min (old.currentMessage.length - old.bytesWritten) 5 := rfl
  have hlength : (old.fill [1, 0, 0, 0, 0]).length = old.currentMessage.length := rfl
  have hsame : old.messages ≠ old.messages ++ [tagged 0 [0]] := by
    intro heq
    have := congrArg length heq
    simp at this
  unfold doRead readLoop at hread
  simp only [hbusy, if_false, readBody] at hread
  split at hread
  · cases hread
  · next next rest heq =>
    split at heq
    · -- the first bytes complete the unfinished message
      cases heq
      have hrest : ([1, 0, 0, 0, 0].drop (old.bytesToRead [1, 0, 0, 0, 0]) : List UInt8).length ≤ 4 := by
        rw [length_drop, hbytes, length_cons]
        simp only [length_cons, length_nil]
        omega
      obtain ⟨r', hr', hidle⟩ := messages_readLoop_idle
        (r := old.deliver (old.fill [1, 0, 0, 0, 0])) rfl hrest
      cases hr'.symm.trans hread
      rw [hidle] at hmessages
      unfold deliver at hmessages
      simp only at hmessages
      split at hmessages
      · have hlast := append_cancel_left hmessages
        exact fill_ne_tagged hwritten (cons.inj hlast).1
      · exact hsame hmessages
    · next hopen =>
      split at heq
      · cases heq
      · -- the message goes on
        cases heq
        have hall : old.bytesToRead [1, 0, 0, 0, 0] = 5 := by
          rw [hlength] at hopen
          omega
        rw [hall] at hread
        cases hread
        exact hsame hmessages

/-- **Reconnecting.**  Whatever has happened to a client object before it connects: it appends the
messages that are complete, in order and unmodified, for every stream of messages of 1 to `MAX_BYTES`
bytes and every cutting of it that splits no length, exactly if no message is unfinished when it
connects.  Messages of other sizes are not appended by any client.
(boost_ipc.cpp:206-310, ipc2.cpp:21-27) -/
theorem reconnect_receives_iff (history : List Action) (c : Ipc.Client)
    (hrun : run step {} history = some c) (hoff : c.joinable = false) :
    ((∀ msgs chunks, Deliverable msgs → Stream msgs chunks → Receives c msgs chunks) ↔
      c.receiver.currentMessage.length = 0) ∧
    ∀ msgs chunks, Receives c msgs chunks → Deliverable (completed msgs chunks.flatten.length) := by
  have hgood := good_run hrun
  refine ⟨⟨fun hall => ?_, fun hidle msgs chunks hmsgs hstream => ?_⟩, fun msgs chunks hreceives => ?_⟩
  · by_contra hbusy
    refine not_receives_of_unfinished hgood hoff hbusy (hall _ _ ?_ ⟨?_, ?_⟩)
    · intro msg hmsg
      rw [mem_singleton.mp hmsg]
      decide
    · exact prefix_rfl
    · exact ⟨rfl, trivial⟩
  · exact receives_of_idle hgood hoff hidle hmsgs hstream
  · obtain ⟨r, hread, hbounded, hvalid, -⟩ := run_connect hgood hoff chunks
    obtain ⟨r', hread', hmessages⟩ := (receives_iff hgood hoff msgs chunks).mp hreceives
    cases hread.symm.trans hread'
    intro msg hmsg
    have hmem : tagged 0 msg ∈ r.messages := by
      rw [hmessages]
      exact mem_append_right _ (mem_map_of_mem hmsg)
    refine ⟨?_, hbounded.delivered _ hmem⟩
    rintro rfl
    exact hvalid.delivered _ hmem rfl

/-- A client that was disconnected between two messages receives what is sent next. -/
theorem reconnect_receives_between_messages :
    ∃ c, run step {} [.connect true, .receive [1, 0, 0, 0, 5], .disconnect] = some c ∧
      Receives c [[7, 8]] [[2, 0, 0, 0], [7, 8]] := by
  refine ⟨_, rfl, ?_⟩
  refine (reconnect_receives_iff [.connect true, .receive [1, 0, 0, 0, 5], .disconnect] _ rfl
    rfl).1.mpr rfl _ _ ?_ ⟨prefix_rfl, rfl, rfl, trivial⟩
  intro msg hmsg
  rw [mem_singleton.mp hmsg]
  decide

/-- A client that was disconnected after one of two bytes takes a byte of the next connection's first
length for the other one. -/
theorem reconnect_inside_message :
    ∃ c, run step {} [.connect true, .receive [2, 0, 0, 0, 5], .disconnect, .connect true,
        .receive [1, 0, 0, 0, 7]] = some c ∧
      completed [[7]] 5 = [[7]] ∧ c.receiver.messages = [tagged 0 [5, 1]] :=
  ⟨_, rfl, rfl, rfl⟩

end TASQuake.Analysis.ClientReconnect
