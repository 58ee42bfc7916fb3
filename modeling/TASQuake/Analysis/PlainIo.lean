import TASQuake.Analysis.BufferIo

/-!
# Plain values in a buffer

A value of fixed size is written as its bytes, and a vector as the number of its bytes in four bytes
and the bytes.  Both are appended (`exists_writeBytes`, `exists_writeVec`) and read back by a reader
that stands before them (`readPod_of_at`, `readPodVec_of_at`).
-/

namespace TASQuake.Io

open Lib List

/-! ## Writing -/

namespace BufferWriter

/-- The bytes stand where the writer stood, and the writer behind them. -/
structure Appended (w w' : BufferWriter) (bytes : List UInt8) : Prop
    extends Wrote w w' bytes.length where
  slice_eq : slice w'.mem w.offset bytes.length = bytes

theorem Appended.append {w w₁ w₂ : BufferWriter} {bytes bytes' : List UInt8}
    (h : Appended w w₁ bytes) (h' : Appended w₁ w₂ bytes') :
    Appended w w₂ (bytes ++ bytes') := by
  obtain ⟨hwrote, hslice⟩ := h.toWrote.append h'.toWrote
  rw [h.slice_eq, h'.slice_eq] at hslice
  rw [← length_append] at hwrote hslice
  exact ⟨hwrote, hslice⟩

section Put

variable {w : BufferWriter} {bytes : List UInt8}

theorem exists_put (h : w.Valid) (hroom : w.offset + bytes.length ≤ w.size) :
    ∃ w', w.put bytes = some w' ∧ Appended w w' bytes ∧ w'.size = w.size := by
  have hmem := h.size_le
  have hsize := h.size_lt
  have hmod : (w.offset + bytes.length) % 2 ^ 32 = w.offset + bytes.length :=
    Nat.mod_eq_of_lt (by omega)
  refine ⟨_, if_pos (by omega), ⟨⟨⟨?_, ?_, ?_⟩, ?_, ?_⟩, ?_⟩, rfl⟩
  · rw [advance_offset, advance_size, hmod]
    exact hroom
  · rw [advance_size, advance_mem, length_memcpy (by omega)]
    exact hmem
  · rw [advance_size]
    exact hsize
  · rw [advance_offset, hmod]
  · rw [advance_mem, take_memcpy le_rfl (by omega)]
  · rw [advance_mem, slice_memcpy_take (by omega) le_rfl, take_length]

theorem put_eq_some {w' : BufferWriter} (hw : w.put bytes = some w') :
    w'.size = w.size ∧ w'.offset = (w.offset + bytes.length) % 2 ^ 32 ∧
      w.mem.length ≤ w'.mem.length := by
  unfold put at hw
  split at hw
  · cases hw
    exact ⟨rfl, rfl, length_le_memcpy _ _ _⟩
  · cases hw

end Put

section WriteBytes

variable {w : BufferWriter} {bytes : List UInt8}

theorem exists_writeBytes (h : w.Valid) {target : ℕ}
    (hroom : w.offset + bytes.length ≤ target) (htarget : target < 2 ^ 32)
    (hreach : w.Reaches target) :
    ∃ w', w.writeBytes bytes = some w' ∧ Appended w w' bytes ∧ w'.Reaches target := by
  obtain ⟨w₁, hw₁, hv₁, hoff₁, hroom₁, htake₁, hreach₁⟩ :=
    exists_allocateSpaceForWrite h hroom htarget hreach
  obtain ⟨w', hw', ⟨⟨hvalid, hoff, htake⟩, hslice⟩, hsize⟩ :=
    exists_put hv₁ (hoff₁.symm ▸ hroom₁)
  rw [hoff₁] at hoff htake hslice
  refine ⟨w', ?_, ⟨⟨hvalid, hoff, htake.trans htake₁⟩, hslice⟩, ?_⟩
  · unfold writeBytes
    rw [hw₁]
    exact hw'
  · unfold Reaches at hreach₁ ⊢
    rw [hsize]
    exact hreach₁

theorem grown_writeBytes (h : w.Valid) {w' : BufferWriter} (hw : w.writeBytes bytes = some w') :
    Grown w w' ∧ w'.offset = (w.offset + bytes.length) % 2 ^ 32 := by
  unfold writeBytes at hw
  rw [bind_eq_some] at hw
  obtain ⟨w₁, hw₁, hput⟩ := hw
  obtain ⟨hgrown, hoff₁, hroom⟩ := grown_allocateSpaceForWrite h hw₁
  obtain ⟨hsize, hoff, hmem⟩ := put_eq_some hput
  rw [hoff₁] at hoff
  refine ⟨⟨⟨?_, ?_, ?_⟩, fun target hreach => hgrown.reaches target ?_⟩, hoff⟩
  · rw [hoff, hsize]
    exact hroom
  · rw [hsize]
    exact hgrown.valid.size_le.trans hmem
  · rw [hsize]
    exact hgrown.valid.size_lt
  · unfold Reaches at hreach ⊢
    rw [← hsize]
    exact hreach

theorem exists_writeVec (h : w.Valid) {target : ℕ}
    (hroom : w.offset + (4 + bytes.length) ≤ target) (htarget : target < 2 ^ 32)
    (hreach : w.Reaches target) :
    ∃ w', w.writeVec bytes = some w' ∧ Appended w w' (framed bytes) ∧ w'.Reaches target := by
  have hlength : bytes.length % 2 ^ 32 = bytes.length := Nat.mod_eq_of_lt (by omega)
  have hspace : (bytes.length + 4) % 2 ^ 32 = bytes.length + 4 := Nat.mod_eq_of_lt (by omega)
  obtain ⟨w₁, hw₁, hv₁, hoff₁, hroom₁, htake₁, hreach₁⟩ :=
    exists_allocateSpaceForWrite h (show w.offset + (bytes.length + 4) ≤ target by omega) htarget
      hreach
  obtain ⟨w₂, hw₂, happended₂, hsize₂⟩ :=
    exists_put hv₁ (show w₁.offset + (le32 bytes.length).length ≤ w₁.size by
      rw [length_le32]
      omega)
  have hoff₂ := happended₂.offset_eq
  rw [length_le32] at hoff₂
  obtain ⟨w₃, hw₃, happended₃, hsize₃⟩ :=
    exists_put happended₂.valid (show w₂.offset + bytes.length ≤ w₂.size by omega)
  obtain ⟨⟨hvalid, hoff, htake⟩, hslice⟩ := happended₂.append happended₃
  rw [hoff₁] at hoff htake hslice
  refine ⟨w₃, ?_, ⟨⟨hvalid, hoff, htake.trans htake₁⟩, hslice⟩, ?_⟩
  · unfold writeVec
    simp only [hlength, hspace, hw₁, hw₂, take_length, hw₃, some_bind]
  · unfold Reaches at hreach₁ ⊢
    rw [hsize₃, hsize₂]
    exact hreach₁

theorem grown_writeVec (h : w.Valid) {w' : BufferWriter} (hw : w.writeVec bytes = some w') :
    Grown w w' ∧ w'.offset = (w.offset + (4 + bytes.length)) % 2 ^ 32 := by
  unfold writeVec at hw
  simp only [bind_eq_some] at hw
  obtain ⟨w₁, hw₁, w₂, hw₂, hw₃⟩ := hw
  obtain ⟨hgrown, hoff₁, hroom⟩ := grown_allocateSpaceForWrite h hw₁
  obtain ⟨hsize₂, hoff₂, hmem₂⟩ := put_eq_some hw₂
  obtain ⟨hsize, hoff, hmem⟩ := put_eq_some hw₃
  rw [hoff₁, length_le32] at hoff₂
  have htaken : (bytes.take (bytes.length % 2 ^ 32)).length = bytes.length % 2 ^ 32 :=
    length_take_of_le (Nat.mod_le _ _)
  have hend : w'.offset = (w.offset + (4 + bytes.length)) % 2 ^ 32 := by
    rw [hoff, hoff₂, htaken]
    omega
  refine ⟨⟨⟨?_, ?_, ?_⟩, fun target hreach => hgrown.reaches target ?_⟩, hend⟩
  · rw [hend, hsize, hsize₂]
    omega
  · rw [hsize, hsize₂]
    exact hgrown.valid.size_le.trans (hmem₂.trans hmem)
  · rw [hsize, hsize₂]
    exact hgrown.valid.size_lt
  · unfold Reaches at hreach ⊢
    rw [← hsize₂, ← hsize]
    exact hreach

end WriteBytes

end BufferWriter

/-! ## Reading -/

namespace BufferReader

/-- The reader after it has read some bytes. -/
def skip (self : BufferReader) (bytes : ℕ) : BufferReader :=
  { self with offset := self.offset + bytes }

@[simp] theorem skip_skip (self : BufferReader) (m n : ℕ) :
    (self.skip m).skip n = self.skip (m + n) := by
  unfold skip
  rw [Nat.add_assoc]

/-- The reader stands before the bytes. -/
structure At (r : BufferReader) (bytes : List UInt8) : Prop where
  room : r.offset + bytes.length ≤ r.size
  size_le : r.size ≤ r.buffer.length
  size_lt : r.size < 2 ^ 32
  slice_eq : slice r.buffer r.offset bytes.length = bytes

variable {r : BufferReader}

theorem At.append {first rest : List UInt8} (h : r.At (first ++ rest)) :
    r.At first ∧ (r.skip first.length).At rest := by
  obtain ⟨hroom, hle, hlt, hslice⟩ := h
  rw [length_append] at hroom hslice
  rw [slice_add] at hslice
  have hlength : (slice r.buffer r.offset first.length).length = first.length :=
    length_slice (by omega)
  obtain ⟨hfirst, hrest⟩ := append_inj hslice hlength
  refine ⟨⟨by omega, hle, hlt, hfirst⟩, ⟨?_, hle, hlt, hrest⟩⟩
  show r.offset + first.length + rest.length ≤ r.size
  omega

theorem read_of_at {bytes : List UInt8} (h : r.At bytes) :
    r.read bytes.length = (bytes, r.skip bytes.length) := by
  have hroom := h.room
  have hmin : min (sub32 r.size r.offset) bytes.length = bytes.length := by
    rw [sub32_of_le (by omega) h.size_lt]
    omega
  unfold read skip
  simp only [hmin, h.slice_eq]

variable {α : Type} {pod : Pod α}

theorem readPod_of_at {a : α} (h : r.At (pod.toBytes a)) (ha : pod.valid a) :
    r.readPod pod = some (a, r.skip (pod.toBytes a).length) := by
  have hread := read_of_at h
  rw [pod.length_toBytes] at hread
  unfold readPod
  rw [hread, pod.length_toBytes]
  simp only [pod.length_toBytes, if_true, pod.ofBytes_toBytes a ha]

theorem readPodVec_of_at {vec : List α} (h : r.At (framed (pod.vecBytes vec)))
    (hvec : ∀ a ∈ vec, pod.valid a) :
    r.readPodVec pod = some (vec, r.skip (4 + (pod.vecBytes vec).length)) := by
  have hroom := h.room
  have hlt := h.size_lt
  unfold framed at h hroom
  rw [length_append, length_le32] at hroom
  obtain ⟨hhead, hbody⟩ := h.append
  have hnum : ofLe (slice r.buffer r.offset 4) = (pod.vecBytes vec).length := by
    rw [show slice r.buffer r.offset 4 = le32 (pod.vecBytes vec).length from hhead.slice_eq,
      ofLe_le32 (by omega)]
  have hfour : (slice r.buffer r.offset 4).length = 4 := by
    rw [show slice r.buffer r.offset 4 = le32 (pod.vecBytes vec).length from hhead.slice_eq,
      length_le32]
  have hbytes : slice r.buffer (r.offset + 4) (pod.vecBytes vec).length = pod.vecBytes vec :=
    hbody.slice_eq
  have hoff : (r.offset + 4) % 2 ^ 32 = r.offset + 4 := Nat.mod_eq_of_lt (by omega)
  have hend : (r.offset + 4 + (pod.vecBytes vec).length) % 2 ^ 32 =
      r.offset + (4 + (pod.vecBytes vec).length) := by
    rw [Nat.add_assoc]
    exact Nat.mod_eq_of_lt (by omega)
  have hmul : (pod.vecBytes vec).length % pod.size = 0 := by
    rw [pod.length_vecBytes, Nat.mul_mod_left]
  have hcount : (pod.vecBytes vec).length / pod.size = vec.length := by
    rw [pod.length_vecBytes, Nat.mul_div_cancel _ pod.size_pos]
  unfold readPodVec skip
  simp only [hnum, hfour, hoff, hbytes, hend, hmul, hcount, pod.ofVecBytes_vecBytes hvec, ne_eq,
    not_true_eq_false, or_self, if_false]

end BufferReader

end TASQuake.Io
