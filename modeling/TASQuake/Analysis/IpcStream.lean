import TASQuake.Lib.Run
import TASQuake.Model.IpcEndpoints
import Mathlib.Data.List.Infix

/-!
# The receiver at a position of the stream

`stateAt msgs n` is the state that a receiver should be in after `n` bytes of the stream of `msgs`;
a chunk that starts outside the lengths takes `stateAt a` to `stateAt b` (`readLoop_stateAt`).
Nothing is delivered for a message that is longer than `MAX_BYTES`.
-/

namespace TASQuake.Analysis.IpcFraming

open Lib Ipc Ipc.Receiver List

/-- A message as it is delivered. -/
def tagged (connectionId : ℕ) (msg : List UInt8) : Message :=
  { address := some msg, length := msg.length, connectionId := connectionId }

/-- Expecting a length. -/
def idle (done : List Message) : Receiver := { messages := done }

/-- `w` bytes of `msg` have been read, into a block if there is one. -/
def reading (connectionId : ℕ) (done : List Message) (msg : List UInt8) (w : ℕ) : Receiver :=
  { currentMessage :=
      { address :=
          if maxBytes < msg.length then none
          else some (msg.take w ++ replicate (msg.length - w) 0)
        length := msg.length
        connectionId := connectionId }
    bytesWritten := w
    messages := done }

/-- What is delivered of the messages. -/
def delivered (connectionId : ℕ) (msgs : List (List UInt8)) : List Message :=
  (msgs.filter fun msg => decide (msg.length ≤ maxBytes)).map (tagged connectionId)

/-- The receiver after `n` bytes of the stream of `msgs`, when `done` has been delivered
before.  Bytes of a length that is not complete are dropped. -/
def stateAt (connectionId : ℕ) : List Message → List (List UInt8) → ℕ → Receiver
  | done, [], _ => idle done
  | done, msg :: msgs, n =>
    if n < 4 then idle done
    else if n < 4 + msg.length then reading connectionId done msg (n - 4)
    else stateAt connectionId (done ++ delivered connectionId [msg]) msgs (n - (4 + msg.length))

/-- The messages that can be framed and that the loop sees the end of. -/
def Framable (msgs : List (List UInt8)) : Prop :=
  ∀ msg ∈ msgs, msg ≠ [] ∧ msg.length < 2 ^ 32

variable (connectionId : ℕ)

theorem delivered_cons (msg : List UInt8) (msgs : List (List UInt8)) :
    delivered connectionId (msg :: msgs) =
      delivered connectionId [msg] ++ delivered connectionId msgs := by
  unfold delivered
  rw [← singleton_append, filter_append, map_append]

section Loop

variable (connectionId : ℕ) (done : List Message) {msg : List UInt8}

theorem readHeader_idle (h : msg.length < 2 ^ 32) (rest : List UInt8) :
    (idle done).readHeader connectionId (le32 msg.length ++ rest) =
      reading connectionId done msg 0 := by
  have htake : (le32 msg.length ++ rest).take 4 = le32 msg.length := rfl
  unfold readHeader reading idle
  simp only [htake, ofLe_le32 h]
  simp

variable {w : ℕ}

theorem memcpy_reading (hw : w ≤ msg.length) (k : ℕ) :
    memcpy (msg.take w ++ replicate (msg.length - w) 0) w ((msg.drop w).take k) =
      msg.take (w + k) ++ replicate (msg.length - (w + k)) 0 := by
  have hsplit : msg.take (w + k) = msg.take w ++ (msg.drop w).take k := take_add
  have hlen : (msg.take w).length = w := by simp [hw]
  unfold memcpy
  rw [hsplit, take_append_of_le_length (by omega), take_of_length_le (by omega)]
  congr 1
  rw [drop_append, drop_eq_nil_of_le (by omega), nil_append, hlen,
    drop_replicate, length_take, length_drop]
  congr 1
  omega

variable {k : ℕ}

theorem fill_reading (hw : w ≤ msg.length) {buffer : List UInt8}
    (hread : (reading connectionId done msg w).bytesToRead buffer = k)
    (hbuffer : buffer.take k = (msg.drop w).take k) :
    (reading connectionId done msg w).fill buffer =
      (reading connectionId done msg (w + k)).currentMessage := by
  unfold fill
  rw [hread, hbuffer]
  unfold reading
  by_cases hmax : maxBytes < msg.length
  · simp only [if_pos hmax, Option.map_none]
  · simp only [if_neg hmax, Option.map_some, memcpy_reading hw]

theorem readBody_reading_of_lt (rest : List UInt8) (hk : k < msg.length - w) :
    (reading connectionId done msg w).readBody ((msg.drop w ++ rest).take k) =
      some (reading connectionId done msg (w + k), []) := by
  have hlen : ((msg.drop w ++ rest).take k).length = k := by
    simp only [length_take, length_append, length_drop]
    omega
  have htake : (msg.drop w ++ rest).take k = (msg.drop w).take k := by
    apply take_append_of_le_length
    rw [length_drop]
    omega
  have hread : (reading connectionId done msg w).bytesToRead ((msg.drop w ++ rest).take k) = k := by
    show min (msg.length - w) ((msg.drop w ++ rest).take k).length = k
    omega
  have hfill := fill_reading connectionId done (by omega) hread (by rw [take_take, min_self, htake])
  have hlength : (reading connectionId done msg (w + k)).currentMessage.length = msg.length := rfl
  have hwritten : (reading connectionId done msg w).bytesWritten = w := rfl
  unfold readBody
  simp only [hread, hfill, hlength, hwritten]
  rw [if_neg (by omega), if_neg (by omega), drop_eq_nil_of_le hlen.le]
  rfl

theorem deliver_reading (hk : w + k = msg.length) :
    (reading connectionId done msg w).deliver (reading connectionId done msg (w + k)).currentMessage =
      idle (done ++ delivered connectionId [msg]) := by
  unfold Receiver.deliver reading delivered idle
  by_cases hmax : maxBytes < msg.length
  · rw [filter_cons_of_neg (by simpa using hmax)]
    simp [hmax]
  · rw [filter_cons_of_pos (by simpa using hmax)]
    simp [hmax, hk, tagged]

theorem readBody_reading_of_le (rest : List UInt8) (hw : w ≤ msg.length) (hk : msg.length - w ≤ k) :
    (reading connectionId done msg w).readBody ((msg.drop w ++ rest).take k) =
      some (idle (done ++ delivered connectionId [msg]), rest.take (k - (msg.length - w))) := by
  have htake : (msg.drop w ++ rest).take k = msg.drop w ++ rest.take (k - (msg.length - w)) := by
    rw [take_append, length_drop, take_of_length_le (by simpa using hk)]
  have hread : (reading connectionId done msg w).bytesToRead
      (msg.drop w ++ rest.take (k - (msg.length - w))) = msg.length - w := by
    show min (msg.length - w) (msg.drop w ++ rest.take (k - (msg.length - w))).length = _
    rw [length_append, length_drop]
    omega
  have hbody : (msg.drop w ++ rest.take (k - (msg.length - w))).take (msg.length - w) =
      (msg.drop w).take (msg.length - w) := by
    apply take_append_of_le_length
    rw [length_drop]
  have hrest : (msg.drop w ++ rest.take (k - (msg.length - w))).drop (msg.length - w) =
      rest.take (k - (msg.length - w)) := drop_left' (length_drop ..)
  have hfill := fill_reading connectionId done hw hread hbody
  have hend : w + (msg.length - w) = msg.length := by omega
  have hdeliver := deliver_reading connectionId done hend
  have hlength : (reading connectionId done msg (w + (msg.length - w))).currentMessage.length =
      msg.length := rfl
  have hwritten : (reading connectionId done msg w).bytesWritten = w := rfl
  rw [htake]
  unfold readBody
  simp only [hread, hfill, hlength, hwritten, hrest]
  rw [if_pos hend.symm, hdeliver]

theorem readLoop_reading_of_lt {fuel : ℕ} (rest : List UInt8) (hk : k < msg.length - w)
    (hfuel : k ≤ fuel) :
    readLoop connectionId fuel (reading connectionId done msg w) ((msg.drop w ++ rest).take k) =
      some (reading connectionId done msg (w + k)) := by
  have hbody := readBody_reading_of_lt connectionId done rest hk
  have hlen : ((msg.drop w ++ rest).take k).length = k := by
    simp only [length_take, length_append, length_drop]
    omega
  have hpos : (reading connectionId done msg w).currentMessage.length ≠ 0 := by
    show msg.length ≠ 0
    omega
  cases hb : (msg.drop w ++ rest).take k with
  | nil =>
    rw [hb] at hlen
    obtain rfl : 0 = k := hlen
    simp [readLoop]
  | cons byte tail =>
    rw [hb] at hbody hlen
    obtain ⟨fuel, rfl⟩ : ∃ f, fuel = f + 1 := ⟨fuel - 1, by simp at hlen; omega⟩
    simp only [readLoop, if_neg hpos, hbody]

theorem readLoop_reading_of_le {fuel : ℕ} (rest : List UInt8) (hw : w < msg.length)
    (hk : msg.length - w ≤ k) :
    readLoop connectionId (fuel + 1) (reading connectionId done msg w)
        ((msg.drop w ++ rest).take k) =
      readLoop connectionId fuel (idle (done ++ delivered connectionId [msg]))
        (rest.take (k - (msg.length - w))) := by
  have hbody := readBody_reading_of_le connectionId done rest hw.le hk
  have hpos : (reading connectionId done msg w).currentMessage.length ≠ 0 := by
    show msg.length ≠ 0
    omega
  cases hb : (msg.drop w ++ rest).take k with
  | nil =>
    have hlen : ((msg.drop w ++ rest).take k).length = 0 := by rw [hb]; rfl
    simp only [length_take, length_append, length_drop] at hlen
    omega
  | cons byte tail =>
    rw [hb] at hbody
    simp only [readLoop, if_neg hpos, hbody]

end Loop

variable {msgs : List (List UInt8)}

theorem readLoop_idle {connectionId : ℕ} (hmsgs : Framable msgs) (done : List Message) {n fuel : ℕ}
    (hfuel : n ≤ fuel) :
    readLoop connectionId fuel (idle done) ((frames msgs).take n) =
      some (stateAt connectionId done msgs n) := by
  induction msgs generalizing done n fuel with
  | nil => simp [readLoop, stateAt]
  | cons msg msgs ih =>
    obtain ⟨hne, hmax⟩ := hmsgs msg mem_cons_self
    have hpos : 0 < msg.length := length_pos_iff.mpr hne
    have hrest : Framable msgs := fun m hm => hmsgs m (mem_cons_of_mem _ hm)
    have hlen := length_frames_cons msg msgs
    unfold stateAt
    by_cases h4 : n < 4
    · -- too short for a length, or nothing at all
      rw [if_pos h4]
      cases hb : (frames (msg :: msgs)).take n with
      | nil => simp [readLoop]
      | cons byte tail =>
        have hbl : ((frames (msg :: msgs)).take n).length = (byte :: tail).length := by rw [hb]
        rw [length_take] at hbl
        obtain ⟨fuel, rfl⟩ : ∃ f, fuel = f + 1 := ⟨fuel - 1, by simp at hbl; omega⟩
        have hidle : (idle done).currentMessage.length = 0 := rfl
        simp only [readLoop, if_pos hidle]
        rw [if_pos (by omega)]
    · rw [if_neg h4]
      obtain ⟨fuel, rfl⟩ : ∃ f, fuel = f + 1 := ⟨fuel - 1, by omega⟩
      have hhead : readLoop connectionId (fuel + 1) (idle done) ((frames (msg :: msgs)).take n) =
          readLoop connectionId fuel (reading connectionId done msg 0)
            ((msg.drop 0 ++ frames msgs).take (n - 4)) := by
        have hb : (frames (msg :: msgs)).take n =
            le32 msg.length ++ (msg ++ frames msgs).take (n - 4) := by
          rw [frames_cons, take_append, take_of_length_le (by simp; omega), length_le32]
        have hidle : (idle done).currentMessage.length = 0 := rfl
        rw [hb, drop_zero,
          ← readHeader_idle connectionId done hmax ((msg ++ frames msgs).take (n - 4))]
        simp only [le32, cons_append, nil_append, readLoop, if_pos hidle]
        rw [if_neg (by simp)]
        rfl
      rw [hhead]
      by_cases hin : n < 4 + msg.length
      · rw [if_pos hin, readLoop_reading_of_lt _ _ _ (by omega) (by omega), Nat.zero_add]
      · rw [if_neg hin]
        obtain ⟨fuel, rfl⟩ : ∃ f, fuel = f + 1 := ⟨fuel - 1, by omega⟩
        rw [readLoop_reading_of_le _ _ _ hpos (by omega), ih hrest _ (by omega)]
        congr 2
        omega

variable {a : ℕ}

/-- **One chunk.**  From a position outside the lengths the loop goes to the position after
the chunk. -/
theorem readLoop_stateAt {connectionId : ℕ} (hmsgs : Framable msgs) (done : List Message)
    {k fuel : ℕ} (ha : headerCut msgs a = false) (hfuel : k ≤ fuel) :
    readLoop connectionId fuel (stateAt connectionId done msgs a)
        (((frames msgs).drop a).take k) =
      some (stateAt connectionId done msgs (a + k)) := by
  induction msgs generalizing done a with
  | nil => simp [readLoop, stateAt]
  | cons msg msgs ih =>
    obtain ⟨hne, hmax⟩ := hmsgs msg mem_cons_self
    have hpos : 0 < msg.length := length_pos_iff.mpr hne
    have hrest : Framable msgs := fun m hm => hmsgs m (mem_cons_of_mem _ hm)
    unfold headerCut at ha
    by_cases h0 : a = 0
    · subst h0
      have hstart : stateAt connectionId done (msg :: msgs) 0 = idle done := rfl
      rw [hstart, drop_zero, Nat.zero_add]
      exact readLoop_idle hmsgs done hfuel
    · by_cases hin : a < 4 + msg.length
      · rw [if_pos hin] at ha
        have h4 : ¬ a < 4 := fun h => of_decide_eq_false ha ⟨by omega, h⟩
        have hat : stateAt connectionId done (msg :: msgs) a =
            reading connectionId done msg (a - 4) := by
          unfold stateAt
          rw [if_neg h4, if_pos hin]
        have hdrop : (frames (msg :: msgs)).drop a = msg.drop (a - 4) ++ frames msgs := by
          rw [frames_cons, drop_append, drop_eq_nil_of_le (by simp; omega),
            nil_append, length_le32, drop_append_of_le_length (by omega)]
        rw [hat, hdrop]
        by_cases hend : a + k < 4 + msg.length
        · rw [readLoop_reading_of_lt _ _ _ (by omega) hfuel]
          unfold stateAt
          rw [if_neg (by omega), if_pos hend]
          congr 2
          omega
        · obtain ⟨fuel, rfl⟩ : ∃ f, fuel = f + 1 := ⟨fuel - 1, by omega⟩
          rw [readLoop_reading_of_le _ _ _ (by omega) (by omega), readLoop_idle hrest _ (by omega)]
          conv_rhs => unfold stateAt
          rw [if_neg (by omega), if_neg hend]
          congr 2
          omega
      · rw [if_neg hin] at ha
        have hat : stateAt connectionId done (msg :: msgs) a =
            stateAt connectionId (done ++ delivered connectionId [msg]) msgs
              (a - (4 + msg.length)) := by
          conv_lhs => unfold stateAt
          rw [if_neg (by omega), if_neg hin]
        have hat' : stateAt connectionId done (msg :: msgs) (a + k) =
            stateAt connectionId (done ++ delivered connectionId [msg]) msgs
              (a - (4 + msg.length) + k) := by
          conv_lhs => unfold stateAt
          rw [if_neg (by omega), if_neg (by omega)]
          congr 1
          omega
        have hdrop : (frames (msg :: msgs)).drop a = (frames msgs).drop (a - (4 + msg.length)) := by
          rw [frames_cons, ← append_assoc, drop_append,
            drop_eq_nil_of_le (by simp; omega), nil_append]
          simp
        rw [hat, hat', hdrop]
        exact ih hrest _ ha

theorem stateAt_zero (done : List Message) (msgs : List (List UInt8)) :
    stateAt connectionId done msgs 0 = idle done := by
  cases msgs <;> rfl

theorem stateAt_end (done : List Message) (msgs : List (List UInt8)) :
    stateAt connectionId done msgs (frames msgs).length =
      idle (done ++ delivered connectionId msgs) := by
  induction msgs generalizing done with
  | nil => simp [stateAt, delivered]
  | cons msg msgs ih =>
    have hlen := length_frames_cons msg msgs
    unfold stateAt
    rw [if_neg (by omega), if_neg (by omega), hlen, Nat.add_sub_cancel_left, ih,
      delivered_cons connectionId msg msgs, append_assoc]

/-! ## Runs over chunks -/

/-- No chunk ends inside a length: whatever messages precede one, and whatever chunks have been
received, these do not end strictly inside the four bytes after those. -/
def HeadersWhole (msgs chunks : List (List UInt8)) : Prop :=
  ∀ before msg after, msgs = before ++ msg :: after → ∀ received, received <+: chunks →
    ¬ ((frames before).length < received.flatten.length ∧
      received.flatten.length < (frames before).length + 4)

/-- No chunk from position `a` on ends inside a length. -/
def WholeFrom (msgs : List (List UInt8)) (a : ℕ) (chunks : List (List UInt8)) : Prop :=
  ∀ received ∈ chunks.inits, headerCut msgs (a + received.flatten.length) = false

variable {chunks : List (List UInt8)}

theorem headersWhole_iff : HeadersWhole msgs chunks ↔ WholeFrom msgs 0 chunks := by
  constructor
  · intro h received hrec
    rw [Nat.zero_add]
    apply Bool.eq_false_of_not_eq_true
    intro hcut
    obtain ⟨before, msg, after, heq, hin⟩ := headerCut_iff.mp hcut
    exact h before msg after heq received ((mem_inits _ _).mp hrec) hin
  · intro h before msg after heq received hrec hin
    have hfalse := h received ((mem_inits _ _).mpr hrec)
    rw [Nat.zero_add, headerCut_iff.mpr ⟨before, msg, after, heq, hin⟩] at hfalse
    cases hfalse

instance WholeFrom.decidable (msgs : List (List UInt8)) (a : ℕ) (chunks : List (List UInt8)) :
    Decidable (WholeFrom msgs a chunks) :=
  inferInstanceAs (Decidable (∀ received ∈ chunks.inits, _))

instance HeadersWhole.decidable (msgs chunks : List (List UInt8)) :
    Decidable (HeadersWhole msgs chunks) :=
  decidable_of_iff _ headersWhole_iff.symm

theorem wholeFrom_cons {chunk : List UInt8} :
    WholeFrom msgs a (chunk :: chunks) ↔
      headerCut msgs a = false ∧ WholeFrom msgs (a + chunk.length) chunks := by
  unfold WholeFrom
  simp [Nat.add_assoc]

/-- Every chunk from position `a` on starts outside a length.  The last one may end inside one. -/
def StartsWhole (msgs : List (List UInt8)) : ℕ → List (List UInt8) → Prop
  | _, [] => True
  | a, chunk :: chunks => headerCut msgs a = false ∧ StartsWhole msgs (a + chunk.length) chunks

theorem WholeFrom.startsWhole (h : WholeFrom msgs a chunks) : StartsWhole msgs a chunks := by
  induction chunks generalizing a with
  | nil => trivial
  | cons chunk chunks ih =>
    obtain ⟨ha, hrest⟩ := wholeFrom_cons.mp h
    exact ⟨ha, ih hrest⟩

section Runs

variable (connectionId : ℕ) (done : List Message) {msgs : List (List UInt8)}

variable {a : ℕ}

theorem doRead_stateAt (hmsgs : Framable msgs) (ha : headerCut msgs a = false)
    {chunk rest : List UInt8} (hchunk : chunk ++ rest = (frames msgs).drop a) :
    doRead connectionId (stateAt connectionId done msgs a) chunk =
      some (stateAt connectionId done msgs (a + chunk.length)) := by
  have htake : chunk = ((frames msgs).drop a).take chunk.length := by
    rw [← hchunk, take_left]
  unfold doRead
  conv_lhs => rw [htake]
  rw [readLoop_stateAt hmsgs done ha]
  rw [← htake]
  exact Nat.le_succ _

theorem run_of_startsWhole (hmsgs : Framable msgs) {chunks : List (List UInt8)} {rest : List UInt8}
    (hchunks : chunks.flatten ++ rest = (frames msgs).drop a) (h : StartsWhole msgs a chunks) :
    run (doRead connectionId) (stateAt connectionId done msgs a) chunks =
      some (stateAt connectionId done msgs (a + chunks.flatten.length)) := by
  induction chunks generalizing a with
  | nil => rfl
  | cons chunk chunks ih =>
    rw [flatten_cons, append_assoc] at hchunks
    obtain ⟨ha, hstarts⟩ := h
    refine run_cons_eq_some.mpr ⟨_, doRead_stateAt connectionId done hmsgs ha hchunks, ?_⟩
    have hdrop : chunks.flatten ++ rest = (frames msgs).drop (a + chunk.length) := by
      rw [← drop_drop, ← hchunks, drop_left]
    rw [ih hdrop hstarts, flatten_cons, length_append, Nat.add_assoc]

theorem run_of_wholeFrom (hmsgs : Framable msgs) {chunks : List (List UInt8)}
    (hchunks : chunks.flatten = (frames msgs).drop a) (h : WholeFrom msgs a chunks) :
    run (doRead connectionId) (stateAt connectionId done msgs a) chunks =
      some (stateAt connectionId done msgs (a + chunks.flatten.length)) := by
  have hall : chunks.flatten ++ [] = (frames msgs).drop a := by rw [append_nil, hchunks]
  exact run_of_startsWhole connectionId done hmsgs hall h.startsWhole

end Runs

/-- A message that is longer than `MAX_BYTES` is skipped: whatever stands around it is delivered
as if it were not there, and the receiver then expects a length. -/
theorem oversized_messages_are_skipped (connectionId : ℕ) (msgs chunks : List (List UInt8))
    (hne : ∀ msg ∈ msgs, msg ≠ []) (hlen : ∀ msg ∈ msgs, msg.length < 2 ^ 32)
    (hchunks : chunks.flatten = frames msgs) (hwhole : HeadersWhole msgs chunks) :
    run (sessionRead connectionId) {} chunks =
      some
        { currentMessage := { address := none, length := 0, connectionId := 0 }
          bytesWritten := 0
          messages := (msgs.filter fun msg => decide (msg.length ≤ 2 ^ 25)).map fun msg =>
            { address := some msg, length := msg.length, connectionId := connectionId } } := by
  have hmsgs : Framable msgs := fun msg hmsg => ⟨hne msg hmsg, hlen msg hmsg⟩
  have hdrop : chunks.flatten = (frames msgs).drop 0 := by rw [hchunks, drop_zero]
  have hrun := run_of_wholeFrom connectionId [] hmsgs hdrop (headersWhole_iff.mp hwhole)
  rw [stateAt_zero, hchunks, Nat.zero_add, stateAt_end, nil_append] at hrun
  exact hrun

/-- A stream in one chunk: a message of `2 ^ 25 + 1` bytes between two of one byte. -/
theorem oversized_messages_are_skipped_between :
    run (sessionRead 3) {} [frames [[7], replicate (2 ^ 25 + 1) 0, [9]]] =
      some
        { currentMessage := { address := none, length := 0, connectionId := 0 }
          bytesWritten := 0
          messages := [{ address := some [7], length := 1, connectionId := 3 },
            { address := some [9], length := 1, connectionId := 3 }] } := by
  have hlong : (replicate (2 ^ 25 + 1) (0 : UInt8)).length = 2 ^ 25 + 1 :=
    length_replicate
  generalize replicate (2 ^ 25 + 1) (0 : UInt8) = long at hlong
  have hmem : ∀ msg ∈ [[7], long, [9]], 0 < msg.length ∧ msg.length < 2 ^ 32 := by
    intro msg hmsg
    simp only [mem_cons, not_mem_nil, or_false] at hmsg
    rcases hmsg with rfl | rfl | rfl
    · decide
    · omega
    · decide
  have hwhole : HeadersWhole [[7], long, [9]] [frames [[7], long, [9]]] := by
    rw [headersWhole_iff, wholeFrom_cons]
    refine ⟨headerCut_zero _, fun received hreceived => ?_⟩
    obtain rfl : received = [] := mem_singleton.mp hreceived
    rw [Nat.zero_add, flatten_nil, length_nil, Nat.add_zero]
    exact headerCut_length _
  rw [oversized_messages_are_skipped 3 [[7], long, [9]] _
    (fun msg hmsg => length_pos_iff.mp (hmem msg hmsg).1) (fun msg hmsg => (hmem msg hmsg).2)
    (by rw [flatten_cons, flatten_nil, append_nil]) hwhole,
    filter_cons_of_pos (by decide), filter_cons_of_neg (by rw [hlong]; decide),
    filter_cons_of_pos (by decide)]
  rfl

end TASQuake.Analysis.IpcFraming
