import TASQuake.Model.Io
import Mathlib.Data.List.TakeWhile

/-!
# What is written and what is read back

`write` appends a text, except that the last byte of a text that exactly fills the buffer is a null
character (`Printed`).  A reader takes both for the end of a line (`getLine_of_remaining`).

The size of the buffer is doubled in 32-bit arithmetic.  Up to `2 ^ 31` bytes a size is always found
(`reaches_of_le`); beyond, the size can become 0 and the loop does not end.
-/

namespace TASQuake.Io

open Lib Nat List

theorem sub32_of_le {a b : ℕ} (hle : b ≤ a) (ha : a < 2 ^ 32) : sub32 a b = a - b := by
  unfold sub32
  omega

/-! ## Allocating -/

/-- A size that has been doubled `k` times in a 32-bit word. -/
def doubled (size k : ℕ) : ℕ := size * 2 ^ k % 2 ^ 32

theorem doubled_lt (size k : ℕ) : doubled size k < 2 ^ 32 := mod_lt _ (by norm_num)

theorem doubled_zero {size : ℕ} (h : size < 2 ^ 32) : doubled size 0 = size := by
  unfold doubled
  rw [pow_zero, mul_one, mod_eq_of_lt h]

theorem doubled_doubled (size j k : ℕ) : doubled (doubled size j) k = doubled size (j + k) := by
  unfold doubled
  rw [mod_mul_mod, pow_add, mul_assoc]

theorem lt_of_pos_doubled {size k : ℕ} (h : 0 < doubled size k) : k < 32 := by
  by_contra hk
  obtain ⟨d, rfl⟩ := Nat.exists_eq_add_of_le (not_lt.mp hk)
  unfold doubled at h
  rw [pow_add, mul_left_comm, mul_mod_right] at h
  exact lt_irrefl _ h

namespace BufferWriter

/-- What holds of every writer: the offset is inside the buffer, and the buffer inside the
memory allocated. -/
structure Valid (w : BufferWriter) : Prop where
  offset_le : w.offset ≤ w.size
  size_le : w.size ≤ w.mem.length
  size_lt : w.size < 2 ^ 32

instance (w : BufferWriter) : Decidable w.Valid :=
  decidable_of_iff (w.offset ≤ w.size ∧ w.size ≤ w.mem.length ∧ w.size < 2 ^ 32)
    ⟨fun h => ⟨h.1, h.2.1, h.2.2⟩, fun h => ⟨h.offset_le, h.size_le, h.size_lt⟩⟩

theorem valid_init : init.Valid := by
  refine ⟨zero_le _, ?_, by decide⟩
  show 128 ≤ (replicate 128 (0 : UInt8)).length
  rw [length_replicate]

/-- Doubling the size of the buffer reaches a target. -/
def Reaches (w : BufferWriter) (target : ℕ) : Prop := ∃ k, target ≤ doubled (max 1 w.size) k

theorem growSize_step (target fuel size : ℕ) (h : size < target) :
    growSize target (fuel + 1) size = growSize target fuel (doubled size 1) := by
  rw [growSize, if_pos h, shiftLeft_eq]
  rfl

theorem exists_growSize {target : ℕ} (fuel size k : ℕ) (hk : k < fuel) (hsize : size < 2 ^ 32)
    (htarget : target ≤ doubled size k) :
    ∃ j, j ≤ k ∧ growSize target fuel size = some (doubled size j) ∧
      target ≤ doubled size j := by
  induction fuel generalizing size k with
  | zero => omega
  | succ fuel ih =>
    by_cases hlt : size < target
    · obtain ⟨k, rfl⟩ : ∃ i, k = 1 + i := by
        refine Nat.exists_eq_add_of_le (one_le_iff_ne_zero.mpr ?_)
        rintro rfl
        rw [doubled_zero hsize] at htarget
        omega
      rw [← doubled_doubled] at htarget
      obtain ⟨j, hj, hgrow, hle⟩ := ih (doubled size 1) k (by omega) (doubled_lt _ _) htarget
      rw [doubled_doubled] at hgrow hle
      exact ⟨1 + j, by omega, (growSize_step target fuel size hlt).trans hgrow, hle⟩
    · refine ⟨0, zero_le k, ?_, ?_⟩
      · rw [growSize, if_neg hlt, doubled_zero hsize]
      · rw [doubled_zero hsize]
        omega

theorem doubled_of_growSize {target fuel size n : ℕ} (hsize : size < 2 ^ 32)
    (h : growSize target fuel size = some n) :
    (∃ j, n = doubled size j) ∧ target ≤ n ∧ size ≤ n := by
  induction fuel generalizing size with
  | zero => cases h
  | succ fuel ih =>
    by_cases hlt : size < target
    · rw [growSize_step target fuel size hlt] at h
      obtain ⟨⟨j, hn⟩, hle, -⟩ := ih (doubled_lt _ _) h
      exact ⟨⟨1 + j, by rw [hn, doubled_doubled]⟩, hle, by omega⟩
    · rw [growSize, if_neg hlt] at h
      cases h
      exact ⟨⟨0, (doubled_zero hsize).symm⟩, by omega, le_rfl⟩

theorem reaches_of_le {w : BufferWriter} (h : w.size < 2 ^ 32) {target : ℕ}
    (ht : target ≤ 2 ^ 31) : w.Reaches target := by
  have hexists : ∀ fuel size, 0 < size → size < 2 ^ 32 → 2 ^ 31 ≤ size * 2 ^ fuel →
      ∃ k, target ≤ doubled size k := by
    intro fuel
    induction fuel with
    | zero =>
      intro size _ hlt hle
      exact ⟨0, by rw [doubled_zero hlt]; omega⟩
    | succ fuel ih =>
      intro size hpos hlt hle
      by_cases hsize : target ≤ size
      · exact ⟨0, by rw [doubled_zero hlt]; exact hsize⟩
      · -- one more doubling stays inside the word
        have hdouble : doubled size 1 = size * 2 := mod_eq_of_lt (by omega)
        obtain ⟨k, hk⟩ := ih (size * 2) (by omega) (by omega) (by
          rw [mul_assoc, ← pow_succ']
          exact hle)
        exact ⟨1 + k, by rw [← doubled_doubled, hdouble]; exact hk⟩
  refine hexists 31 (max 1 w.size) (by omega) (by omega) ?_
  calc 2 ^ 31 = 1 * 2 ^ 31 := (one_mul _).symm
    _ ≤ max 1 w.size * 2 ^ 31 := mul_le_mul_right _ (le_max_left _ _)

theorem realloc_take (self : BufferWriter) {k newSize : ℕ} (hk : k ≤ newSize)
    (hmem : k ≤ self.mem.length) : (self.realloc newSize).mem.take k = self.mem.take k := by
  show (self.mem.take newSize ++ _).take k = _
  rw [take_append_of_le_length (by rw [length_take]; omega), take_take, min_eq_left hk]

theorem length_realloc (self : BufferWriter) (newSize : ℕ) :
    newSize ≤ (self.realloc newSize).mem.length := by
  show newSize ≤ (self.mem.take newSize ++ replicate (newSize - self.mem.length) 0).length
  rw [length_append, length_take, length_replicate]
  omega

theorem Reaches.exists_lt {w : BufferWriter} {target : ℕ} (h : w.Reaches target) :
    ∃ k, k < 33 ∧ target ≤ doubled (max 1 w.size) k := by
  obtain ⟨k, hk⟩ := h
  rcases Nat.eq_zero_or_pos target with rfl | hpos
  · exact ⟨0, by omega, zero_le _⟩
  · have hlt : k < 32 := lt_of_pos_doubled (lt_of_lt_of_le hpos hk)
    exact ⟨k, by omega, hk⟩

theorem exists_allocateSpaceForWrite {self : BufferWriter} (h : self.Valid) {bytes target : ℕ}
    (hroom : self.offset + bytes ≤ target) (htarget : target < 2 ^ 32)
    (hreach : self.Reaches target) :
    ∃ w, self.allocateSpaceForWrite bytes = some w ∧ w.Valid ∧ w.offset = self.offset ∧
      self.offset + bytes ≤ w.size ∧ w.mem.take self.offset = self.mem.take self.offset ∧
      w.Reaches target := by
  have hoff := h.offset_le
  have hmem := h.size_le
  have hsize := h.size_lt
  have hmod : (self.offset + bytes) % 2 ^ 32 = self.offset + bytes := mod_eq_of_lt (by omega)
  obtain ⟨k, hk, hle⟩ := hreach.exists_lt
  obtain ⟨j, hj, hgrow, hn⟩ := exists_growSize 33 (max 1 self.size) k hk (by omega)
    (hroom.trans hle)
  have hreach' : target ≤ doubled (doubled (max 1 self.size) j) (k - j) := by
    rw [doubled_doubled, Nat.add_sub_cancel' hj]
    exact hle
  have hlt := doubled_lt (max 1 self.size) j
  unfold allocateSpaceForWrite
  simp only [hmod, hgrow, some_bind]
  generalize doubled (max 1 self.size) j = n at hn hreach' hlt
  refine ⟨_, rfl, ?_⟩
  split
  · refine ⟨⟨by show self.offset ≤ n; omega, self.length_realloc n, hlt⟩, rfl, hn,
      self.realloc_take (by omega) (by omega), k - j, ?_⟩
    show target ≤ doubled (max 1 n) (k - j)
    rcases Nat.eq_zero_or_pos n with rfl | hpos
    · -- only 0 is reached from 0
      unfold doubled at hreach'
      rw [zero_mul, zero_mod] at hreach'
      exact hreach'.trans (zero_le _)
    · rw [max_eq_right hpos]
      exact hreach'
  · next heq =>
    have hn' : n = self.size := not_not.mp heq
    exact ⟨h, rfl, hn' ▸ hn, rfl, hreach⟩

/-- A writer that has been written to reaches nothing new. -/
structure Grown (w w' : BufferWriter) : Prop where
  valid : w'.Valid
  reaches : ∀ target, w'.Reaches target → w.Reaches target

theorem Grown.trans {w w' w'' : BufferWriter} (h : Grown w w') (h' : Grown w' w'') :
    Grown w w'' := ⟨h'.valid, fun target hw => h.reaches target (h'.reaches target hw)⟩

theorem Valid.reaches_offset {w : BufferWriter} (h : w.Valid) : w.Reaches w.offset := by
  refine ⟨0, ?_⟩
  have hoff := h.offset_le
  have hsize := h.size_lt
  rw [doubled_zero (by omega)]
  omega

theorem grown_allocateSpaceForWrite {self w : BufferWriter} (h : self.Valid) {bytes : ℕ}
    (hw : self.allocateSpaceForWrite bytes = some w) :
    Grown self w ∧ w.offset = self.offset ∧ (self.offset + bytes) % 2 ^ 32 ≤ w.size := by
  have hoff := h.offset_le
  have hsize := h.size_lt
  unfold allocateSpaceForWrite at hw
  simp only [bind_eq_some, Option.some.injEq] at hw
  obtain ⟨n, hgrow, rfl⟩ := hw
  obtain ⟨⟨j, hn⟩, htarget, hle⟩ := doubled_of_growSize (by omega) hgrow
  split
  · refine ⟨⟨⟨by show self.offset ≤ n; omega, self.length_realloc n, ?_⟩, ?_⟩, rfl, htarget⟩
    · show n < 2 ^ 32
      rw [hn]
      exact doubled_lt _ _
    · rintro target ⟨k, hk⟩
      refine ⟨j + k, hk.trans (le_of_eq ?_)⟩
      show doubled (max 1 n) k = _
      rw [max_eq_right (by omega), hn, doubled_doubled]
  · next heq =>
    have hn' : n = self.size := not_not.mp heq
    exact ⟨⟨h, fun _ hreach => hreach⟩, rfl, hn' ▸ htarget⟩

/-! ## Writing -/

/-- The bytes that stand in the buffer for a text: the text, or the text with its last byte
replaced by the null character that `vsnprintf` ends with. -/
def Printed (text bytes : List UInt8) : Prop := bytes = text ∨ bytes = text.dropLast ++ [0]

theorem vsnprintf_frame {mem : List UInt8} {offset n : ℕ} (hmem : offset + n ≤ mem.length)
    (text : List UInt8) :
    (vsnprintf mem offset n text).length = mem.length ∧
      (vsnprintf mem offset n text).take offset = mem.take offset := by
  unfold vsnprintf
  split
  · exact ⟨rfl, rfl⟩
  · refine ⟨length_memcpy ?_, take_memcpy le_rfl (by omega)⟩
    rw [length_append, length_take, length_singleton]
    omega

theorem slice_vsnprintf {text mem : List UInt8} {offset n : ℕ} (hne : text ≠ [])
    (hn : text.length ≤ n) (hmem : offset + n ≤ mem.length) :
    slice (vsnprintf mem offset n text) offset text.length =
      if text.length = n then text.dropLast ++ [0] else text := by
  have hpos := length_pos_iff.mpr hne
  have hlen : (text.take (n - 1) ++ [0]).length = min (n - 1) text.length + 1 := by
    rw [length_append, length_take, length_singleton]
  unfold vsnprintf
  rw [if_neg (by omega), slice_memcpy_take (by omega) (by omega)]
  split
  · next hfit => rw [take_of_length_le (by omega), dropLast_eq_take, hfit]
  · rw [take_append_of_le_length (by rw [length_take]; omega), take_take,
      min_eq_left (by omega), take_length]

theorem printed_vsnprintf {text mem : List UInt8} {offset n : ℕ} (hne : text ≠ [])
    (hn : text.length ≤ n) (hmem : offset + n ≤ mem.length) :
    Printed text (slice (vsnprintf mem offset n text) offset text.length) := by
  rw [slice_vsnprintf hne hn hmem]
  split
  · exact Or.inr rfl
  · exact Or.inl rfl

/-- The writer after a text has been written. -/
structure Wrote (w w' : BufferWriter) (length : ℕ) : Prop where
  valid : w'.Valid
  offset_eq : w'.offset = w.offset + length
  take_eq : w'.mem.take w.offset = w.mem.take w.offset

theorem Wrote.append {w w₁ w₂ : BufferWriter} {m n : ℕ} (h : Wrote w w₁ m) (h' : Wrote w₁ w₂ n) :
    Wrote w w₂ (m + n) ∧
      slice w₂.mem w.offset (m + n) = slice w₁.mem w.offset m ++ slice w₂.mem w₁.offset n := by
  have hoff := h.offset_eq
  have hshorter : ∀ l : List UInt8, l.take w.offset = (l.take w₁.offset).take w.offset := by
    intro l
    rw [take_take, min_eq_left (by omega)]
  refine ⟨⟨h'.valid, by rw [h'.offset_eq, hoff, add_assoc], ?_⟩, ?_⟩
  · rw [hshorter w₂.mem, h'.take_eq, ← hshorter, h.take_eq]
  · rw [slice_add, slice_congr h'.take_eq (by omega), hoff]

section Write

variable {w : BufferWriter} {text : List UInt8}

theorem Valid.bytesLeft_eq (h : w.Valid) : w.bytesLeft = w.size - w.offset := by
  unfold bytesLeft
  exact sub32_of_le h.offset_le h.size_lt

theorem Valid.offset_add_le (h : w.Valid) : w.offset + w.bytesLeft ≤ w.mem.length := by
  have hoff := h.offset_le
  have hmem := h.size_le
  rw [h.bytesLeft_eq]
  omega

@[simp] theorem print_size (w : BufferWriter) (text : List UInt8) :
    (w.print text).size = w.size := by
  unfold print
  rfl

@[simp] theorem print_offset (w : BufferWriter) (text : List UInt8) :
    (w.print text).offset = w.offset := by
  unfold print
  rfl

@[simp] theorem advance_size (w : BufferWriter) (bytes : ℕ) : (w.advance bytes).size = w.size := by
  unfold advance
  rfl

@[simp] theorem advance_mem (w : BufferWriter) (bytes : ℕ) : (w.advance bytes).mem = w.mem := by
  unfold advance
  rfl

@[simp] theorem advance_offset (w : BufferWriter) (bytes : ℕ) :
    (w.advance bytes).offset = (w.offset + bytes) % 2 ^ 32 := by
  unfold advance
  rfl

theorem Valid.length_print (h : w.Valid) (text : List UInt8) :
    (w.print text).mem.length = w.mem.length := by
  unfold print
  exact (vsnprintf_frame h.offset_add_le text).1

theorem Valid.take_print (h : w.Valid) (text : List UInt8) :
    (w.print text).mem.take w.offset = w.mem.take w.offset := by
  unfold print
  exact (vsnprintf_frame h.offset_add_le text).2

theorem Valid.print (h : w.Valid) (text : List UInt8) : (w.print text).Valid := by
  refine ⟨?_, ?_, ?_⟩
  · rw [print_offset, print_size]
    exact h.offset_le
  · rw [print_size, h.length_print]
    exact h.size_le
  · rw [print_size]
    exact h.size_lt

theorem Valid.advance (h : w.Valid) {bytes : ℕ} (hroom : (w.offset + bytes) % 2 ^ 32 ≤ w.size) :
    (w.advance bytes).Valid := by
  refine ⟨?_, ?_, ?_⟩
  · rw [advance_offset, advance_size]
    exact hroom
  · rw [advance_size, advance_mem]
    exact h.size_le
  · rw [advance_size]
    exact h.size_lt

theorem reaches_advance_print {target : ℕ} (bytes : ℕ) :
    ((w.print text).advance bytes).Reaches target ↔ w.Reaches target := by
  unfold Reaches
  rw [advance_size, print_size]

theorem reaches_print {target : ℕ} : (w.print text).Reaches target ↔ w.Reaches target := by
  unfold Reaches
  rw [print_size]

theorem slice_print (h : w.Valid) (hne : text ≠ []) (hroom : text.length ≤ w.bytesLeft) :
    Printed text (slice (w.print text).mem w.offset text.length) := by
  unfold print
  exact printed_vsnprintf hne hroom h.offset_add_le

theorem wrote_advance_print (h : w.Valid) (hne : text ≠ [])
    (hroom : w.offset + text.length ≤ w.size) :
    Wrote w ((w.print text).advance text.length) text.length ∧
      Printed text (slice ((w.print text).advance text.length).mem w.offset text.length) := by
  have hsize := h.size_lt
  have hbytes := h.bytesLeft_eq
  have hmod : (w.offset + text.length) % 2 ^ 32 = w.offset + text.length :=
    mod_eq_of_lt (by omega)
  refine ⟨⟨(h.print text).advance ?_, ?_, ?_⟩, ?_⟩
  · rw [print_offset, print_size, hmod]
    exact hroom
  · rw [advance_offset, print_offset, hmod]
  · rw [advance_mem, h.take_print]
  · rw [advance_mem]
    exact slice_print h hne (by omega)

theorem exists_write (h : w.Valid) (hne : text ≠ []) (hshort : text.length < 2 ^ 31) {target : ℕ}
    (hroom : w.offset + text.length ≤ target) (htarget : target < 2 ^ 32)
    (hreach : w.Reaches target) :
    ∃ w', w.write text = some w' ∧ Wrote w w' text.length ∧
      Printed text (slice w'.mem w.offset text.length) ∧ w'.Reaches target := by
  have hoff := h.offset_le
  unfold write
  rw [if_neg (not_le.mpr hshort)]
  split
  · obtain ⟨w₁, hw₁, hv₁, hoff₁, hroom₁, htake₁, hreach₁⟩ :=
      exists_allocateSpaceForWrite (h.print text) (by rw [print_offset]; exact hroom) htarget
        (reaches_print.mpr hreach)
    rw [print_offset] at hoff₁ hroom₁ htake₁
    rw [← hoff₁] at hroom₁
    obtain ⟨⟨hvalid, hoffset, htake⟩, hprinted⟩ := wrote_advance_print hv₁ hne hroom₁
    rw [hoff₁] at hoffset htake hprinted
    rw [hw₁]
    refine ⟨_, rfl, ⟨hvalid, hoffset, ?_⟩, hprinted, (reaches_advance_print _).mpr hreach₁⟩
    rw [htake, htake₁, h.take_print]
  · next hfull =>
    have hfit := not_not.mp hfull
    have hbytes := h.bytesLeft_eq
    obtain ⟨hwrote, hprinted⟩ := wrote_advance_print h hne (by omega)
    exact ⟨_, rfl, hwrote, hprinted, (reaches_advance_print _).mpr hreach⟩

theorem grown_write (h : w.Valid) {w' : BufferWriter} (hw : w.write text = some w') :
    Grown w w' ∧ w'.offset = (w.offset + text.length) % 2 ^ 32 ∧ text.length < 2 ^ 31 := by
  have hoff := h.offset_le
  unfold write at hw
  by_cases hshort : text.length < 2 ^ 31
  · rw [if_neg (not_le.mpr hshort)] at hw
    split at hw
    · rw [bind_eq_some] at hw
      obtain ⟨w₁, hw₁, hw⟩ := hw
      cases hw
      obtain ⟨⟨hv₁, hreach₁⟩, hoff₁, hroom₁⟩ := grown_allocateSpaceForWrite (h.print text) hw₁
      rw [← hoff₁] at hroom₁
      refine ⟨⟨(hv₁.print text).advance ?_, fun target hreach => ?_⟩, ?_, hshort⟩
      · rw [print_offset, print_size]
        exact hroom₁
      · exact reaches_print.mp (hreach₁ target ((reaches_advance_print _).mp hreach))
      · rw [advance_offset, print_offset, hoff₁, print_offset]
    · next hfull =>
      cases hw
      have hfit := not_not.mp hfull
      have hbytes := h.bytesLeft_eq
      refine ⟨⟨(h.print text).advance ?_, fun _ hreach => (reaches_advance_print _).mp hreach⟩,
        ?_, hshort⟩
      · rw [print_offset, print_size]
        have hle := mod_le (w.offset + text.length) (2 ^ 32)
        omega
      · rw [advance_offset, print_offset]
  · rw [if_pos (not_lt.mp hshort)] at hw
    cases hw

end Write

theorem exists_writeAll {w : BufferWriter} (h : w.Valid) {texts : List (List UInt8)}
    (hne : ∀ text ∈ texts, text ≠ []) (hshort : ∀ text ∈ texts, text.length < 2 ^ 31)
    {target : ℕ} (hroom : w.offset + texts.flatten.length ≤ target) (htarget : target < 2 ^ 32)
    (hreach : w.Reaches target) :
    ∃ w' pieces, w.writeAll texts = some w' ∧ Wrote w w' texts.flatten.length ∧
      List.Forall₂ Printed texts pieces ∧
      slice w'.mem w.offset texts.flatten.length = pieces.flatten := by
  induction texts generalizing w with
  | nil => exact ⟨w, [], rfl, ⟨h, rfl, rfl⟩, .nil, rfl⟩
  | cons text texts ih =>
    have htext := hne text mem_cons_self
    rw [flatten_cons, length_append] at hroom
    obtain ⟨w₁, hw₁, hwrote₁, hprinted, hreach₁⟩ :=
      exists_write h htext (hshort text mem_cons_self) (by omega) htarget hreach
    have hoff₁ := hwrote₁.offset_eq
    obtain ⟨w₂, pieces, hw₂, hwrote₂, hpieces, hslice⟩ :=
      ih hwrote₁.valid (fun t ht => hne t (mem_cons_of_mem _ ht))
        (fun t ht => hshort t (mem_cons_of_mem _ ht)) (by omega) hreach₁
    obtain ⟨hwrote, happend⟩ := hwrote₁.append hwrote₂
    refine ⟨w₂, slice w₁.mem w.offset text.length :: pieces, ?_, ?_, .cons hprinted hpieces, ?_⟩
    · unfold writeAll
      rw [foldlM_cons, hw₁]
      exact hw₂
    · rw [flatten_cons, length_append]
      exact hwrote
    · rw [flatten_cons, length_append, happend, hslice, flatten_cons]

theorem grown_writeAll {w w' : BufferWriter} (h : w.Valid) {texts : List (List UInt8)}
    (hw : w.writeAll texts = some w') :
    Grown w w' ∧ w'.offset = (w.offset + texts.flatten.length) % 2 ^ 32 ∧
      ∀ text ∈ texts, text.length < 2 ^ 31 := by
  induction texts generalizing w with
  | nil =>
    have hlt := lt_of_le_of_lt h.offset_le h.size_lt
    cases hw
    exact ⟨⟨h, fun _ hreach => hreach⟩, (mod_eq_of_lt hlt).symm,
      fun text ht => absurd ht not_mem_nil⟩
  | cons text texts ih =>
    unfold writeAll at hw
    rw [foldlM_cons, bind_eq_some] at hw
    obtain ⟨w₁, hw₁, hrest⟩ := hw
    obtain ⟨hgrown₁, hoff₁, hshort⟩ := grown_write h hw₁
    obtain ⟨hgrown, hoff, hshorts⟩ := ih hgrown₁.valid hrest
    refine ⟨hgrown₁.trans hgrown, ?_, fun t ht => ?_⟩
    · rw [hoff, hoff₁, mod_add_mod, flatten_cons, length_append, add_assoc]
    · rcases mem_cons.mp ht with rfl | ht
      · exact hshort
      · exact hshorts t ht

/-- A buffer of `2 ^ 31` bytes that is full. -/
def full : BufferWriter := ⟨replicate (2 ^ 31) 0, 2 ^ 31, 2 ^ 31⟩

theorem valid_full : full.Valid := by
  refine ⟨le_rfl, ?_, by show 2 ^ 31 < 2 ^ 32; norm_num⟩
  show 2 ^ 31 ≤ (replicate (2 ^ 31) (0 : UInt8)).length
  rw [length_replicate]

theorem not_reaches_of_full {w : BufferWriter} (hsize : w.size = 2 ^ 31) {target : ℕ}
    (ht : 2 ^ 31 < target) : ¬ w.Reaches target := by
  rintro ⟨k, hk⟩
  rw [hsize, max_eq_right (by norm_num)] at hk
  cases k with
  | zero =>
    rw [doubled_zero (by norm_num)] at hk
    exact absurd hk (not_le.mpr ht)
  | succ k =>
    have hzero : doubled (2 ^ 31) (k + 1) = 0 := by
      have hpow : 2 ^ (k + 1) = 2 * 2 ^ k := pow_succ'
      unfold doubled
      rw [hpow]
      omega
    rw [hzero] at hk
    exact absurd (lt_of_lt_of_le ht hk) (not_lt_zero _)

end BufferWriter

/-! ## Reading lines -/

namespace BufferReader

/-- The reader knows all bytes up to its size. -/
structure Valid (r : BufferReader) : Prop where
  offset_le : r.offset ≤ r.size
  size_le : r.size ≤ r.buffer.length

theorem length_remaining {self : BufferReader} (h : self.Valid) :
    self.remaining.length = self.size - self.offset := by
  have hoff := h.offset_le
  have hsize := h.size_le
  exact length_slice (by omega)

theorem getLine_of_remaining {self : BufferReader} (h : self.Valid) {line rest : List UInt8}
    {c : UInt8} (hrem : self.remaining = line ++ c :: rest) (hne : line ≠ [])
    (hline : ∀ b ∈ line, isLineEnd b = false) (hc : isLineEnd c = true) :
    self.getLine = (line, { self with offset := self.offset + line.length + 1 }) ∧
      ({ self with offset := self.offset + line.length + 1 } : BufferReader).Valid ∧
      ({ self with offset := self.offset + line.length + 1 } : BufferReader).remaining = rest := by
  have hlen := length_remaining h
  rw [hrem, length_append, length_cons] at hlen
  have htake : self.remaining.takeWhile (fun b => !isLineEnd b) = line := by
    rw [hrem, takeWhile_append_of_pos fun b hb => by rw [hline b hb]; rfl,
      takeWhile_cons_of_neg (by rw [hc]; decide), append_nil]
  obtain ⟨fuel, hfuel⟩ : ∃ fuel, self.size - self.offset = fuel + 1 :=
    ⟨line.length + rest.length, by omega⟩
  refine ⟨?_, ⟨by show self.offset + line.length + 1 ≤ self.size; omega, h.size_le⟩, ?_⟩
  · unfold getLine canRead
    rw [decide_eq_true (show self.offset < self.size by omega), hfuel]
    simp only [Bool.not_true, Bool.false_eq_true, if_false, getLineLoop]
    rw [if_pos (show self.offset < self.size by omega), htake, if_neg (by simpa using hne)]
  · have hsplit : self.size - self.offset =
        (line.length + 1) + (self.size - (self.offset + line.length + 1)) := by omega
    have hdrop : self.remaining.drop (line.length + 1) = rest := by
      rw [hrem, ← singleton_append, ← append_assoc]
      exact drop_left' (by rw [length_append, length_singleton])
    rw [← hdrop]
    unfold remaining
    rw [hsplit, drop_slice, add_assoc]

theorem isLineEnd_of_mem_getLine (self : BufferReader) :
    ∀ c ∈ self.getLine.1, isLineEnd c = false := by
  have hloop : ∀ (fuel : ℕ) (r : BufferReader), ∀ c ∈ (getLineLoop fuel r).1,
      isLineEnd c = false := by
    intro fuel
    induction fuel with
    | zero => exact fun r c hc => absurd hc not_mem_nil
    | succ fuel ih =>
      intro r c hc
      rw [getLineLoop] at hc
      split at hc
      · simp only at hc
        split at hc
        · exact ih _ c hc
        · simpa using mem_takeWhile_imp hc
      · exact absurd hc not_mem_nil
  unfold getLine
  split
  · exact fun c hc => absurd hc not_mem_nil
  · exact hloop _ _

/-- A line moves the reader on, and an empty line is the end of the buffer: the loop has run
until it ends by itself. -/
theorem getLine_progress {self : BufferReader} (h : self.canRead = true) :
    self.getLine.2.size = self.size ∧ self.offset < self.getLine.2.offset ∧
      (self.getLine.1 = [] → self.getLine.2.canRead = false) := by
  have hloop : ∀ (fuel : ℕ) (r : BufferReader), r.size - r.offset ≤ fuel →
      (getLineLoop fuel r).2.size = r.size ∧ r.offset ≤ (getLineLoop fuel r).2.offset ∧
        (r.offset < r.size → r.offset < (getLineLoop fuel r).2.offset) ∧
        ((getLineLoop fuel r).1 = [] → (getLineLoop fuel r).2.canRead = false) := by
    intro fuel
    induction fuel with
    | zero =>
      intro r hfuel
      have hge : ¬ r.offset < r.size := by omega
      exact ⟨rfl, le_rfl, fun hlt => absurd hlt hge, fun _ => decide_eq_false hge⟩
    | succ fuel ih =>
      intro r hfuel
      rw [getLineLoop]
      split
      · next hlt =>
        simp only
        split
        · obtain ⟨hsize, hle, -, hend⟩ := ih
            { r with offset := r.offset + (r.remaining.takeWhile fun c => !isLineEnd c).length + 1 }
            (by simp only; omega)
          simp only at hsize hle
          exact ⟨hsize, by omega, fun _ => by omega, hend⟩
        · next hline =>
          exact ⟨rfl, by simp only; omega, fun _ => by simp only; omega,
            fun hnil => absurd (isEmpty_iff.mpr hnil) hline⟩
      · next hge => exact ⟨rfl, le_rfl, fun hlt => absurd hlt hge, fun _ => decide_eq_false hge⟩
  have hlt := of_decide_eq_true h
  obtain ⟨hsize, -, hmove, hend⟩ := hloop (self.size - self.offset) self le_rfl
  unfold getLine
  rw [h]
  exact ⟨hsize, hmove hlt, hend⟩

end BufferReader

end TASQuake.Io
