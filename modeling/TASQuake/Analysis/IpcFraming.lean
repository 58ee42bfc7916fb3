import TASQuake.Analysis.IpcStream

/-!
# Messages and how the stream is cut

`receiverAt msgs n` is the state of a receiver after `n` bytes of a stream of messages that are all
delivered.  If a chunk ends inside a length, the bytes of the length that have arrived are dropped.
`accounted`, the bytes that the delivered messages account for, never grows by more than the bytes
received, so bytes that have been dropped are missing for good.
-/

namespace TASQuake.Analysis.IpcFraming

open Lib Ipc Ipc.Receiver List

/-! ## The state at a position of the stream -/

/-- `w` bytes of `msg` have been read. -/
def partway (connectionId : ℕ) (done : List Message) (msg : List UInt8) (w : ℕ) : Receiver :=
  { currentMessage :=
      { address := some (msg.take w ++ List.replicate (msg.length - w) 0)
        length := msg.length
        connectionId := connectionId }
    bytesWritten := w
    messages := done }

/-- The receiver after `n` bytes of the stream of `msgs`, when `done` has been delivered
before.  Bytes of a length that is not complete are dropped. -/
def receiverAt (connectionId : ℕ) : List Message → List (List UInt8) → ℕ → Receiver
  | done, [], _ => idle done
  | done, msg :: msgs, n =>
    if n < 4 then idle done
    else if n < 4 + msg.length then partway connectionId done msg (n - 4)
    else receiverAt connectionId (done ++ [tagged connectionId msg]) msgs (n - (4 + msg.length))

/-- The messages the loop can deliver. -/
def Deliverable (msgs : List (List UInt8)) : Prop :=
  ∀ msg ∈ msgs, msg ≠ [] ∧ msg.length ≤ maxBytes

variable {msgs : List (List UInt8)}

theorem Deliverable.framable (h : Deliverable msgs) : Framable msgs :=
  fun msg hmsg => ⟨(h msg hmsg).1, lt_of_le_of_lt (h msg hmsg).2 (by decide)⟩

theorem receiverAt_eq_stateAt (connectionId : ℕ) (hmsgs : Deliverable msgs) (done : List Message)
    (n : ℕ) : receiverAt connectionId done msgs n = stateAt connectionId done msgs n := by
  induction msgs generalizing done n with
  | nil => rfl
  | cons msg msgs ih =>
    have hmax := (hmsgs msg mem_cons_self).2
    have hstored : partway connectionId done msg (n - 4) =
        reading connectionId done msg (n - 4) := by
      unfold partway reading
      rw [if_neg (not_lt.mpr hmax)]
    have hdelivered : delivered connectionId [msg] = [tagged connectionId msg] := by
      unfold delivered
      rw [filter_cons_of_pos (by simpa using hmax)]
      rfl
    unfold receiverAt stateAt
    rw [hstored, hdelivered, ih fun m hm => hmsgs m (mem_cons_of_mem _ hm)]

theorem receiverAt_zero (connectionId : ℕ) (done : List Message) (msgs : List (List UInt8)) :
    receiverAt connectionId done msgs 0 = idle done := by
  cases msgs <;> rfl

theorem receiverAt_end (connectionId : ℕ) (done : List Message) (msgs : List (List UInt8)) :
    receiverAt connectionId done msgs (frames msgs).length =
      idle (done ++ msgs.map (tagged connectionId)) := by
  induction msgs generalizing done with
  | nil => simp [receiverAt]
  | cons msg msgs ih =>
    have hlen := length_frames_cons msg msgs
    unfold receiverAt
    rw [if_neg (by omega), if_neg (by omega), hlen, Nat.add_sub_cancel_left, ih]
    simp

/-! ## Bytes that are accounted for -/

/-- The bytes of the messages delivered, with their lengths. -/
def bytesOf (msgs : List Message) : ℕ := (msgs.map fun m => 4 + m.length).sum

/-- The bytes that the state of a receiver accounts for. -/
def accounted (r : Receiver) : ℕ :=
  bytesOf r.messages + if r.currentMessage.length = 0 then 0 else 4 + r.bytesWritten

theorem bytesOf_concat (msgs : List Message) (m : Message) :
    bytesOf (msgs ++ [m]) = bytesOf msgs + (4 + m.length) := by
  simp [bytesOf]

theorem bytesOf_tagged (connectionId : ℕ) (msgs : List (List UInt8)) :
    bytesOf (msgs.map (tagged connectionId)) = (frames msgs).length := by
  rw [length_frames, bytesOf, map_map]
  rfl

/-- What holds of a receiver at every time, whatever it has received: no message is delivered
empty, and the one being read is not complete. -/
structure Valid (r : Receiver) : Prop where
  delivered : ∀ m ∈ r.messages, m.length ≠ 0
  idle : r.currentMessage.length = 0 → r.bytesWritten = 0
  reading : r.currentMessage.length ≠ 0 → r.bytesWritten < r.currentMessage.length

theorem valid_init : Valid {} := ⟨nofun, fun _ => rfl, fun h => absurd rfl h⟩

variable {r : Receiver}

theorem Valid.readHeader (h : Valid r) (hidle : r.currentMessage.length = 0) (connectionId : ℕ)
    (buffer : List UInt8) :
    Valid (r.readHeader connectionId buffer) ∧
      accounted (r.readHeader connectionId buffer) ≤ accounted r + 4 := by
  have hw := h.idle hidle
  constructor
  · refine ⟨h.delivered, fun _ => hw, ?_⟩
    intro hne
    show r.bytesWritten < _
    rw [hw]
    exact Nat.pos_of_ne_zero hne
  · simp only [accounted, Receiver.readHeader, hidle, hw, if_true]
    split <;> omega

theorem Valid.deliver (h : Valid r) {m : Message} (hm : m.length ≠ 0) :
    Valid (r.deliver m) ∧ accounted (r.deliver m) ≤ bytesOf r.messages + (4 + m.length) := by
  unfold Receiver.deliver
  split
  · refine ⟨⟨?_, fun _ => rfl, fun hne => absurd rfl hne⟩, ?_⟩
    · intro m' hm'
      rcases mem_append.mp hm' with hm' | hm'
      · exact h.delivered m' hm'
      · rw [mem_singleton.mp hm']
        exact hm
    · simp [accounted, bytesOf_concat]
  · refine ⟨⟨h.delivered, fun _ => rfl, fun hne => absurd rfl hne⟩, ?_⟩
    simp [accounted]

theorem Valid.readBody (h : Valid r) (hne : r.currentMessage.length ≠ 0) {buffer : List UInt8}
    (hb : buffer ≠ []) :
    ∃ r' rest, r.readBody buffer = some (r', rest) ∧ Valid r' ∧ rest.length < buffer.length ∧
      accounted r' + rest.length ≤ accounted r + buffer.length := by
  have hw := h.reading hne
  have hpos : 0 < buffer.length := length_pos_iff.mpr hb
  have hacc : accounted r = bytesOf r.messages + (4 + r.bytesWritten) := by
    unfold accounted
    rw [if_neg hne]
  have hfill : (r.fill buffer).length = r.currentMessage.length := rfl
  have hread : r.bytesToRead buffer = min (r.currentMessage.length - r.bytesWritten) buffer.length :=
    rfl
  have hrest : (buffer.drop (r.bytesToRead buffer)).length = buffer.length - r.bytesToRead buffer :=
    length_drop ..
  unfold Receiver.readBody
  simp only [hfill]
  split
  · obtain ⟨hvalid, hdeliver⟩ := h.deliver (m := r.fill buffer) hne
    exact ⟨_, _, rfl, hvalid, by omega, by omega⟩
  · rw [if_neg (by omega)]
    refine ⟨_, _, rfl, ⟨h.delivered, fun hlen => absurd hlen hne, fun _ => ?_⟩, by omega, ?_⟩
    · show r.bytesWritten + r.bytesToRead buffer < r.currentMessage.length
      omega
    · simp only [accounted, hfill, if_neg hne]
      omega

theorem Valid.readLoop (h : Valid r) (connectionId : ℕ) {fuel : ℕ} {buffer : List UInt8}
    (hfuel : buffer.length ≤ fuel) :
    ∃ r', readLoop connectionId fuel r buffer = some r' ∧ Valid r' ∧
      accounted r' ≤ accounted r + buffer.length := by
  induction fuel generalizing r buffer with
  | zero =>
    obtain rfl : buffer = [] := eq_nil_of_length_eq_zero (by omega)
    exact ⟨r, rfl, h, by simp⟩
  | succ fuel ih =>
    cases buffer with
    | nil => exact ⟨r, rfl, h, by simp⟩
    | cons byte rest =>
      unfold Receiver.readLoop
      simp only
      split
      · next hidle =>
        split
        · exact ⟨r, rfl, h, by omega⟩
        · next h4 =>
          obtain ⟨hvalid, hacc⟩ := h.readHeader hidle connectionId (byte :: rest)
          have hlen : ((byte :: rest).drop 4).length = (byte :: rest).length - 4 :=
            length_drop ..
          have hfuel' : ((byte :: rest).drop 4).length ≤ fuel := by omega
          obtain ⟨r', hr', hvalid', hacc'⟩ := ih hvalid hfuel'
          exact ⟨r', hr', hvalid', by omega⟩
      · next hne =>
        obtain ⟨r₁, tail, hbody, hvalid, hlt, hacc⟩ := h.readBody hne (cons_ne_nil byte rest)
        rw [hbody]
        have hfuel' : tail.length ≤ fuel := by omega
        obtain ⟨r', hr', hvalid', hacc'⟩ := ih hvalid hfuel'
        exact ⟨r', hr', hvalid', by omega⟩

theorem Valid.run (h : Valid r) (connectionId : ℕ) (chunks : List (List UInt8)) :
    ∃ r', run (doRead connectionId) r chunks = some r' ∧ Valid r' ∧
      accounted r' ≤ accounted r + chunks.flatten.length := by
  induction chunks generalizing r with
  | nil => exact ⟨r, rfl, h, by simp⟩
  | cons chunk chunks ih =>
    obtain ⟨r₁, hr₁, hvalid, hacc⟩ := h.readLoop connectionId (Nat.le_succ chunk.length)
    obtain ⟨r', hr', hvalid', hacc'⟩ := ih hvalid
    refine ⟨r', run_cons_eq_some.mpr ⟨r₁, hr₁, hr'⟩, hvalid', ?_⟩
    rw [flatten_cons, length_append]
    omega

/-- The state at a position accounts for all bytes before it, except for those of a length
that is cut. -/
theorem accounted_receiverAt (connectionId : ℕ) (hmsgs : Deliverable msgs) (done : List Message)
    {n : ℕ} (hcut : headerCut msgs n = true) :
    accounted (receiverAt connectionId done msgs n) < bytesOf done + n := by
  induction msgs generalizing done n with
  | nil => simp [headerCut] at hcut
  | cons msg msgs ih =>
    have hrest : Deliverable msgs := fun m hm => hmsgs m (mem_cons_of_mem _ hm)
    unfold headerCut at hcut
    split at hcut
    · have hn := of_decide_eq_true hcut
      unfold receiverAt
      rw [if_pos hn.2]
      show bytesOf done + 0 < _
      omega
    · next hin =>
      have hlt := ih hrest (done ++ [tagged connectionId msg]) hcut
      rw [bytesOf_concat] at hlt
      unfold receiverAt
      rw [if_neg (by omega), if_neg hin]
      have htag : (tagged connectionId msg).length = msg.length := rfl
      omega

/-! ## Runs over chunks -/

section Runs

variable (connectionId : ℕ) {msgs : List (List UInt8)}

theorem doRead_receiverAt (hmsgs : Deliverable msgs) {a : ℕ} (ha : headerCut msgs a = false)
    {chunk rest : List UInt8} (hchunk : chunk ++ rest = (frames msgs).drop a) :
    doRead connectionId (receiverAt connectionId [] msgs a) chunk =
      some (receiverAt connectionId [] msgs (a + chunk.length)) := by
  rw [receiverAt_eq_stateAt connectionId hmsgs, receiverAt_eq_stateAt connectionId hmsgs]
  exact doRead_stateAt connectionId [] hmsgs.framable ha hchunk

theorem run_of_not_wholeFrom (hmsgs : Deliverable msgs) {chunks : List (List UInt8)} {a : ℕ}
    (hchunks : chunks.flatten = (frames msgs).drop a) (ha : headerCut msgs a = false)
    (hvalid : Valid (receiverAt connectionId [] msgs a)) (h : ¬ WholeFrom msgs a chunks) :
    ∃ r, run (doRead connectionId) (receiverAt connectionId [] msgs a) chunks = some r ∧
      accounted r < a + chunks.flatten.length := by
  induction chunks generalizing a with
  | nil =>
    refine absurd ?_ h
    intro before hbefore
    obtain rfl : before = [] := by simpa using hbefore
    exact ha
  | cons chunk chunks ih =>
    rw [flatten_cons] at hchunks
    have hstep := doRead_receiverAt connectionId hmsgs ha hchunks
    obtain ⟨r₁, hr₁, hvalid₁, -⟩ := hvalid.readLoop connectionId (Nat.le_succ chunk.length)
    have hr₁' := Option.some.inj (hr₁.symm.trans hstep)
    rw [hr₁'] at hvalid₁
    have hdrop : chunks.flatten = (frames msgs).drop (a + chunk.length) := by
      rw [← drop_drop, ← hchunks, drop_left]
    rw [flatten_cons, length_append]
    by_cases hcut : headerCut msgs (a + chunk.length) = true
    · have hlt := accounted_receiverAt connectionId hmsgs [] hcut
      obtain ⟨r, hr, -, hacc⟩ := hvalid₁.run connectionId chunks
      refine ⟨r, run_cons_eq_some.mpr ⟨_, hstep, hr⟩, ?_⟩
      have hnil : bytesOf [] = 0 := rfl
      omega
    · have hcut' : headerCut msgs (a + chunk.length) = false := by simpa using hcut
      have hrest : ¬ WholeFrom msgs (a + chunk.length) chunks := fun hw =>
        h (wholeFrom_cons.mpr ⟨ha, hw⟩)
      obtain ⟨r, hr, hacc⟩ := ih hdrop hcut' hvalid₁ hrest
      exact ⟨r, run_cons_eq_some.mpr ⟨_, hstep, hr⟩, by omega⟩

end Runs

theorem sendMessage_eq_framed {msg : List UInt8} (h : msg.length ≤ maxBytes) :
    sendMessage msg = framed msg := by
  have hlt : msg.length < 2 ^ 31 := lt_of_le_of_lt h (by decide)
  unfold sendMessage writeToSocket framed
  rw [if_pos hlt, if_pos (by simp)]

theorem flatMap_sendMessage (h : ∀ msg ∈ msgs, msg.length ≤ maxBytes) :
    msgs.flatMap sendMessage = frames msgs := by
  unfold frames
  exact flatMap_congr fun msg hmsg => sendMessage_eq_framed (h msg hmsg)

/-- **One cutting of the stream.**  The receiver delivers exactly the messages sent if and only
if none is empty and no length is cut; it then expects a length. -/
theorem run_delivers_iff (connectionId : ℕ) {chunks : List (List UInt8)}
    (hmax : ∀ msg ∈ msgs, msg.length ≤ maxBytes) (hchunks : chunks.flatten = frames msgs) :
    ∃ r, run (doRead connectionId) {} chunks = some r ∧
      (r.messages = msgs.map (tagged connectionId) ↔
        (∀ msg ∈ msgs, msg ≠ []) ∧ HeadersWhole msgs chunks) ∧
      (r.messages = msgs.map (tagged connectionId) → r = idle (msgs.map (tagged connectionId))) := by
  by_cases hne : ∀ msg ∈ msgs, msg ≠ []
  · have hmsgs : Deliverable msgs := fun msg hmsg => ⟨hne msg hmsg, hmax msg hmsg⟩
    have hstart : ({} : Receiver) = receiverAt connectionId [] msgs 0 :=
      (receiverAt_zero connectionId [] msgs).symm
    have hdrop : chunks.flatten = (frames msgs).drop 0 := by rw [hchunks, drop_zero]
    rw [hstart]
    by_cases hwhole : WholeFrom msgs 0 chunks
    · have hrun := run_of_wholeFrom connectionId [] hmsgs.framable hdrop hwhole
      rw [← receiverAt_eq_stateAt connectionId hmsgs, ← receiverAt_eq_stateAt connectionId hmsgs,
        hchunks, Nat.zero_add, receiverAt_end, nil_append] at hrun
      exact ⟨_, hrun, iff_of_true rfl ⟨hne, headersWhole_iff.mpr hwhole⟩, fun _ => rfl⟩
    · obtain ⟨r, hr, hacc⟩ := run_of_not_wholeFrom connectionId hmsgs hdrop
        (headerCut_zero msgs) (hstart ▸ valid_init) hwhole
      have hlost : r.messages ≠ msgs.map (tagged connectionId) := by
        intro heq
        unfold accounted at hacc
        rw [heq, bytesOf_tagged, hchunks] at hacc
        omega
      exact ⟨r, hr, iff_of_false hlost fun h => hwhole (headersWhole_iff.mp h.2), fun h => absurd h hlost⟩
  · obtain ⟨r, hr, hvalid, -⟩ := valid_init.run connectionId chunks
    have hlost : r.messages ≠ msgs.map (tagged connectionId) := by
      intro heq
      apply hne
      rintro msg hmsg rfl
      refine hvalid.delivered (tagged connectionId []) ?_ rfl
      rw [heq]
      exact mem_map_of_mem hmsg
    exact ⟨r, hr, iff_of_false hlost fun h => hne h.1, fun h => absurd h hlost⟩

/-! ## Two cuttings of one stream -/

/-- Both cuttings of the stream give the messages sent and the same final state. -/
def SameDelivery (read : Receiver → List UInt8 → Option Receiver) (connectionId : ℕ)
    (msgs chunks₁ chunks₂ : List (List UInt8)) : Prop :=
  ∃ r₁ r₂, run read {} chunks₁ = some r₁ ∧ run read {} chunks₂ = some r₂ ∧
    r₁.messages = r₂.messages ∧ r₁.currentMessage.length = r₂.currentMessage.length ∧
    r₁.bytesWritten = r₂.bytesWritten ∧ r₁.messages = msgs.map (tagged connectionId)

theorem sameDelivery_iff (connectionId : ℕ) {chunks₁ chunks₂ : List (List UInt8)}
    (hmax : ∀ msg ∈ msgs, msg.length ≤ maxBytes) (h₁ : chunks₁.flatten = frames msgs)
    (h₂ : chunks₂.flatten = frames msgs) :
    SameDelivery (doRead connectionId) connectionId msgs chunks₁ chunks₂ ↔
      (∀ msg ∈ msgs, msg ≠ []) ∧ HeadersWhole msgs chunks₁ ∧ HeadersWhole msgs chunks₂ := by
  obtain ⟨r₁, hr₁, hiff₁, hidle₁⟩ := run_delivers_iff connectionId hmax h₁
  obtain ⟨r₂, hr₂, hiff₂, hidle₂⟩ := run_delivers_iff connectionId hmax h₂
  constructor
  · rintro ⟨s₁, s₂, hs₁, hs₂, hsame, -, -, hsent⟩
    obtain rfl := Option.some.inj (hr₁.symm.trans hs₁)
    obtain rfl := Option.some.inj (hr₂.symm.trans hs₂)
    have hwhole₁ := hiff₁.mp hsent
    have hwhole₂ := hiff₂.mp (hsame.symm.trans hsent)
    exact ⟨hwhole₁.1, hwhole₁.2, hwhole₂.2⟩
  · rintro ⟨hne, hwhole₁, hwhole₂⟩
    have hsent₁ := hiff₁.mpr ⟨hne, hwhole₁⟩
    have hsent₂ := hiff₂.mpr ⟨hne, hwhole₂⟩
    refine ⟨r₁, r₂, hr₁, hr₂, hsent₁.trans hsent₂.symm, ?_, ?_, hsent₁⟩
    · rw [hidle₁ hsent₁, hidle₂ hsent₂]
    · rw [hidle₁ hsent₁, hidle₂ hsent₂]

/-- For messages of at most `MAX_BYTES`, two ways of cutting the stream give the same messages,
exactly those sent, and the same receive state, if and only if no message is empty and neither
cutting cuts a length. -/
theorem framing_independent_iff_lengths_whole (connectionId : ℕ)
    (msgs chunks₁ chunks₂ : List (List UInt8)) (hmax : ∀ msg ∈ msgs, msg.length ≤ maxBytes)
    (h₁ : chunks₁.flatten = msgs.flatMap sendMessage)
    (h₂ : chunks₂.flatten = msgs.flatMap sendMessage) :
    (SameDelivery (sessionRead connectionId) connectionId msgs chunks₁ chunks₂ ↔
      (∀ msg ∈ msgs, msg ≠ []) ∧ HeadersWhole msgs chunks₁ ∧ HeadersWhole msgs chunks₂) ∧
    (SameDelivery clientRead 0 msgs chunks₁ chunks₂ ↔
      (∀ msg ∈ msgs, msg ≠ []) ∧ HeadersWhole msgs chunks₁ ∧ HeadersWhole msgs chunks₂) := by
  rw [flatMap_sendMessage hmax] at h₁ h₂
  exact ⟨sameDelivery_iff connectionId hmax h₁ h₂, sameDelivery_iff 0 hmax h₁ h₂⟩

/-- Two messages, cut inside the first body and between length and body of the second. -/
theorem framing_independent_iff_lengths_whole_example :
    SameDelivery (sessionRead 3) 3 [[7, 8], [9]] [[2, 0, 0, 0, 7], [8, 1, 0, 0, 0], [9]]
      [[2, 0, 0, 0, 7, 8, 1, 0, 0, 0, 9]] := by
  have h := framing_independent_iff_lengths_whole 3 [[7, 8], [9]]
    [[2, 0, 0, 0, 7], [8, 1, 0, 0, 0], [9]] [[2, 0, 0, 0, 7, 8, 1, 0, 0, 0, 9]]
    (by decide) (by decide) (by decide)
  exact h.1.mpr ⟨by decide, by decide, by decide⟩

/-- A one-byte message whose length arrives in two chunks is never delivered. -/
theorem cut_length_loses_message :
    [[1, 0], [0, 0, 7]].flatten = [[7]].flatMap sendMessage ∧
      run (sessionRead 0) {} [[1, 0], [0, 0, 7]] = some {} ∧
      run (sessionRead 0) {} [[1, 0, 0, 0, 7]] = some { messages := [tagged 0 [7]] } ∧
      ¬ SameDelivery (sessionRead 0) 0 [[7]] [[1, 0], [0, 0, 7]] [[1, 0, 0, 0, 7]] := by
  refine ⟨by decide, by decide, by decide, ?_⟩
  rintro ⟨r₁, r₂, hr₁, -, -, -, -, hsent⟩
  have hlost : run (sessionRead 0) {} [[1, 0], [0, 0, 7]] = some {} := by decide
  obtain rfl := Option.some.inj (hlost.symm.trans hr₁)
  cases hsent

end TASQuake.Analysis.IpcFraming
