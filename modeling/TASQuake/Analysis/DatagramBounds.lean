import TASQuake.Model.Datagram

/-!
# The bounds of the buffers that receive datagrams

The length field of a packet is checked against the size of a datagram only.  A field below the size
of a header wraps around, one above what was received brings in bytes of an earlier packet, and
fragments of a reliable message are collected until one says that it is the last.
`receive_in_bounds_iff` gives what the packets have to keep to.
-/

namespace TASQuake.Analysis.DatagramBounds

open Lib Datagram Buffer
open LoopNet (netMaxMessage maxDatagram)

/-- The last packet was used within its bytes, and no buffer is longer than its array. -/
structure InBounds (s : Receiver) : Prop where
  used_le_data : s.used.1 ≤ maxDatagram
  used_le_received : s.used.1 ≤ s.used.2
  receiveMessage_le : s.receiveMessage.1.length ≤ netMaxMessage
  netMessage_le : s.netMessage.1.length ≤ netMaxMessage

/-- The socket uses the payload of the packet: an unreliable packet that is not stale, or the next
fragment of a reliable message. -/
def Uses (s : Receiver) (p : Packet) : Prop :=
  (s.netWait = true ∨ p.source = s.addr) ∧ p.length ≤ netDatagramSize ∧ p.isCtl = false ∧
    (p.isUnreliable = true ∧ ¬ p.sequence < s.unreliableReceiveSequence ∨
      p.isUnreliable = false ∧ p.isAck = false ∧ p.isData = true ∧ p.sequence = s.receiveSequence)

/-- The length field of a packet that is used counts the header and no more than was received, and
a fragment fits behind those that wait for the end of their message. -/
def Sized (s : Receiver) : Read → Prop
  | .packet p => Uses s p → netHeaderSize ≤ p.length ∧ p.length ≤ netHeaderSize + p.received ∧
      (p.isUnreliable = false →
        s.receiveMessage.1.length + (p.length - netHeaderSize) ≤ netMaxMessage)
  | _ => True

theorem payload_of_header_le {p : Packet} (h : netHeaderSize ≤ p.length) :
    p.payload = p.length - netHeaderSize := by
  have hlt : p.length < 2 ^ 16 := Nat.mod_lt _ (by decide)
  unfold Packet.payload netHeaderSize at *
  omega

/-- Without the wrap-around the payload is no more than a datagram holds. -/
theorem header_le_of_payload_le {p : Packet} (h : p.payload ≤ maxDatagram) :
    netHeaderSize ≤ p.length := by
  have hlt : p.length < 2 ^ 16 := Nat.mod_lt _ (by decide)
  unfold Packet.payload netHeaderSize maxDatagram at *
  omega

/-- Copying the payload of a packet behind the bytes of a buffer. -/
theorem map_write (b : Buffer) (p : Packet) (f : Buffer → Receiver)
    (hf : ∀ message, (f message).used = (p.payload, p.received)) :
    (((b.write p.data p.payload).map f).isSome ↔
      p.payload ≤ maxDatagram ∧ b.1.length + p.payload ≤ netMaxMessage) ∧
    ∀ s', (b.write p.data p.payload).map f = some s' → s'.used = (p.payload, p.received) := by
  constructor
  · rw [Option.isSome_map, ← p.data_length]
    unfold write
    split
    next h => exact iff_of_true rfl h
    next h => exact iff_of_false (fun hsome => nomatch hsome) h
  · intro s' hs'
    obtain ⟨message, _, rfl⟩ := Option.map_eq_some_iff.mp hs'
    exact hf message

/-- Writing the fragments that wait to the empty message gives them back. -/
theorem write_empty_bind {α : Type} (b : Buffer) (next : Buffer → Option α) :
    (empty.write b.1 b.1.length >>= next) = next b := by
  have hfits : b.1.length ≤ b.1.length ∧ empty.1.length + b.1.length ≤ netMaxMessage :=
    ⟨Nat.le_refl _, (Nat.zero_add b.1.length).symm ▸ b.2⟩
  have hself : empty.write b.1 b.1.length = some b := by
    rw [write, dif_pos hfits]
    congr 1
    exact Subtype.ext List.take_length
  rw [hself]
  rfl

/-! ## One packet -/

/-- A packet that is not used leaves the buffers alone. -/
theorem round_of_not_uses {s : Receiver} {p : Packet} (h : ¬ Uses s p) :
    ∃ s', s.round (.packet p) = some s' ∧ s'.used = (0, 0) := by
  simp only [Receiver.round]
  split
  next => exact ⟨_, rfl, rfl⟩
  next haddr =>
  split
  next => exact ⟨_, rfl, rfl⟩
  next hlength =>
  split
  next => exact ⟨_, rfl, rfl⟩
  next hctl =>
  have haddr : s.netWait = true ∨ p.source = s.addr := by
    by_contra hforeign
    rw [not_or, Bool.not_eq_true] at hforeign
    exact haddr hforeign
  have huse : ¬ (p.isUnreliable = true ∧ ¬ p.sequence < s.unreliableReceiveSequence ∨
      p.isUnreliable = false ∧ p.isAck = false ∧ p.isData = true ∧
        p.sequence = s.receiveSequence) :=
    fun huse => h ⟨haddr, Nat.le_of_not_lt hlength, Bool.eq_false_iff.mpr hctl, huse⟩
  split
  next hunreliable =>
    -- stale
    have hstale : p.sequence < s.unreliableReceiveSequence :=
      not_not.mp fun hnew => huse (.inl ⟨hunreliable, hnew⟩)
    exact ⟨_, if_pos hstale, rfl⟩
  next hreliable =>
  split
  next => exact ⟨_, rfl, rfl⟩
  next hack =>
  split
  next hdata =>
    -- a duplicate
    have hsequence : p.sequence ≠ s.receiveSequence := fun hsequence =>
      huse (.inr ⟨Bool.eq_false_iff.mpr hreliable, Bool.eq_false_iff.mpr hack, hdata, hsequence⟩)
    exact ⟨_, if_pos hsequence, rfl⟩
  next => exact ⟨_, rfl, rfl⟩

/-- A packet that is used is copied exactly if its payload lies in the packet buffer and fits. -/
theorem round_of_uses {s : Receiver} {p : Packet} (h : Uses s p) :
    ((s.round (.packet p)).isSome ↔ p.payload ≤ maxDatagram ∧
      (p.isUnreliable = false → s.receiveMessage.1.length + p.payload ≤ netMaxMessage)) ∧
    ∀ s', s.round (.packet p) = some s' → s'.used = (p.payload, p.received) := by
  obtain ⟨haddr, hlength, hctl, huse⟩ := h
  have haddr : ¬ (s.netWait = false ∧ p.source ≠ s.addr) := by
    rintro ⟨hwait, hsource⟩
    rcases haddr with hwaits | hsame
    · rw [hwait] at hwaits
      exact Bool.false_ne_true hwaits
    · exact hsource hsame
  simp only [Receiver.round, if_neg haddr, if_neg (Nat.not_lt.mpr hlength), hctl,
    Bool.false_eq_true, if_false]
  rcases huse with ⟨hunreliable, hnew⟩ | ⟨hreliable, hack, hdata, hsequence⟩
  · simp only [hunreliable, if_true, Receiver.unreliable, if_neg hnew]
    refine And.imp_left (fun hsome => hsome.trans (and_congr_right fun hpayload => ?_))
      (map_write .empty p _ fun _ => rfl)
    refine iff_of_true ?_ nofun
    have hempty : empty.1.length = 0 := rfl
    unfold maxDatagram at hpayload
    unfold netMaxMessage
    omega
  · have hnext : ¬ p.sequence ≠ s.receiveSequence := not_not.mpr hsequence
    simp only [hreliable, hack, hdata, if_true, Bool.false_eq_true, if_false, Receiver.reliable,
      if_neg hnext, true_implies]
    split
    -- the last fragment: the message is those that wait and this one
    next =>
      rw [write_empty_bind]
      exact map_write s.receiveMessage p _ fun _ => rfl
    next => exact map_write s.receiveMessage p _ fun _ => rfl

theorem inBounds_of_used {s : Receiver} {payload received : ℕ}
    (h : s.used = (payload, received)) (hreceived : received ≤ maxDatagram)
    (hle : payload ≤ received) : InBounds s where
  used_le_data := by rw [h]; exact Nat.le_trans hle hreceived
  used_le_received := by rw [h]; exact hle
  receiveMessage_le := s.receiveMessage.2
  netMessage_le := s.netMessage.2

/-- A turn of the loop stays in bounds exactly if the packet is sized. -/
theorem round_inBounds_iff (s : Receiver) (read : Read) :
    (∃ s', s.round read = some s' ∧ InBounds s') ↔ Sized s read := by
  have hunused : ∀ s' : Receiver, s'.used = (0, 0) → InBounds s' := fun s' h =>
    inBounds_of_used h (Nat.zero_le _) (Nat.le_refl _)
  cases read with
  | nothing => exact iff_of_true ⟨_, rfl, hunused _ rfl⟩ trivial
  | failed => exact iff_of_true ⟨_, rfl, hunused _ rfl⟩ trivial
  | short => exact iff_of_true ⟨_, rfl, hunused _ rfl⟩ trivial
  | packet p =>
    by_cases h : Uses s p
    · obtain ⟨hsome, hused⟩ := round_of_uses h
      constructor
      · rintro ⟨s', hs', hbounds⟩ _
        have hcopied := hsome.mp (by rw [hs']; rfl)
        have hheader := header_le_of_payload_le hcopied.1
        have hle := hbounds.used_le_received
        rw [hused s' hs', payload_of_header_le hheader] at hle
        refine ⟨hheader, Nat.sub_le_iff_le_add'.mp hle, fun hreliable => ?_⟩
        rw [← payload_of_header_le hheader]
        exact hcopied.2 hreliable
      · intro hsized
        obtain ⟨hheader, hlength, hfits⟩ := hsized h
        rw [← payload_of_header_le hheader] at hfits
        have hle : p.payload ≤ p.received := by
          rw [payload_of_header_le hheader]
          exact Nat.sub_le_iff_le_add'.mpr hlength
        obtain ⟨s', hs'⟩ := Option.isSome_iff_exists.mp
          (hsome.mpr ⟨Nat.le_trans hle p.received_le, hfits⟩)
        exact ⟨s', hs', inBounds_of_used (hused s' hs') p.received_le hle⟩
    · obtain ⟨s', hs', hused⟩ := round_of_not_uses h
      exact iff_of_true ⟨s', hs', hunused s' hused⟩ fun huse => absurd huse h

/-! ## Every sequence of packets -/

/-- On a new socket, over the packets of any number of calls, all copies stay in bounds exactly if
every packet is sized when it is read. -/
theorem receive_in_bounds_iff (netWait : Bool) (addr : ℕ) (netMessage : Buffer)
    (reads : List Read) :
    (∀ past, past <+: reads → ∃ s,
      run Receiver.round (.newQSocket netWait addr netMessage) past = some s ∧ InBounds s) ↔
    Guarded Receiver.round Sized (.newQSocket netWait addr netMessage) reads := by
  refine guard_run (J := fun _ => True) ?_ ?_ trivial ?_
  · intro s read _ _ hsized
    obtain ⟨s', hs', hbounds⟩ := (round_inBounds_iff s read).mpr hsized
    exact ⟨s', hs', trivial, hbounds⟩
  · intro s read s' _ _ hs' hbounds
    exact (round_inBounds_iff s read).mp ⟨s', hs', hbounds⟩
  · exact inBounds_of_used rfl (Nat.zero_le _) (Nat.le_refl _)

/-- An unreliable packet of a bare header with the length field 0: the payload wraps around to
2^32 - 8 and the copy leaves the packet buffer. -/
theorem empty_length_field_overruns :
    let forged : Packet :=
      ⟨0, 0x100000, 0, List.replicate 1024 0, List.length_replicate, 0, Nat.zero_le _⟩
    forged.payload = 2 ^ 32 - 8 ∧
      (Receiver.newQSocket false 0 .empty).round (.packet forged) = none := by
  intro forged
  have huses : Uses (.newQSocket false 0 .empty) forged :=
    ⟨.inr rfl, by decide, by decide, .inl ⟨by decide, by decide⟩⟩
  have hpayload : forged.payload = 2 ^ 32 - 8 := by decide
  refine ⟨hpayload, Option.not_isSome_iff_eq_none.mp fun hsome => ?_⟩
  have hle := ((round_of_uses huses).1.mp hsome).1
  rw [hpayload] at hle
  exact absurd hle (by decide)

end TASQuake.Analysis.DatagramBounds
