import Mathlib.Data.List.Basic
import Mathlib.Tactic.Common
import Mathlib.Data.List.Forall2

/-!
# Blocks of memory

A block of memory is the list of its cells.  `memcpy` writes a run of cells at an offset and
`slice` reads one.  The lemmas say what a slice reads after a write: the cells written, or
what was there before.
-/

namespace TASQuake.Lib

open List

variable {α : Type}

/-- `memcpy` to an offset of a block. -/
def memcpy (block : List α) (offset : ℕ) (src : List α) : List α :=
  block.take offset ++ src ++ block.drop (offset + src.length)

/-- The cells `offset, …, offset + length - 1` of a block. -/
def slice (block : List α) (offset length : ℕ) : List α := (block.drop offset).take length

theorem length_slice {block : List α} {offset length : ℕ} (h : offset + length ≤ block.length) :
    (slice block offset length).length = length := by
  unfold slice
  rw [length_take, length_drop]
  omega

/-- A slice in two parts. -/
theorem slice_add (block : List α) (offset m n : ℕ) :
    slice block offset (m + n) = slice block offset m ++ slice block (offset + m) n := by
  unfold slice
  rw [take_add, drop_drop]

theorem drop_slice (block : List α) (offset k n : ℕ) :
    (slice block offset (k + n)).drop k = slice block (offset + k) n := by
  unfold slice
  rw [drop_take, drop_drop, Nat.add_sub_cancel_left]

/-- A slice depends on the cells before its end only. -/
theorem slice_congr {block block' : List α} {k offset length : ℕ}
    (h : block'.take k = block.take k) (hk : offset + length ≤ k) :
    slice block' offset length = slice block offset length := by
  have hslice : ∀ b : List α, slice b offset length = ((b.take k).drop offset).take length := by
    intro b
    unfold slice
    rw [drop_take, take_take, Nat.min_eq_left (by omega)]
  rw [hslice, hslice, h]

/-- A write past the end of a block does not lose cells. -/
theorem length_le_memcpy (block : List α) (offset : ℕ) (src : List α) :
    block.length ≤ (memcpy block offset src).length := by
  unfold memcpy
  simp only [length_append, length_take, length_drop]
  omega

section Memcpy

variable {block src : List α} {offset : ℕ}

theorem length_memcpy (h : offset + src.length ≤ block.length) :
    (memcpy block offset src).length = block.length := by
  unfold memcpy
  simp only [length_append, length_take, length_drop]
  omega

theorem take_memcpy {k : ℕ} (hk : k ≤ offset) (h : offset ≤ block.length) :
    (memcpy block offset src).take k = block.take k := by
  unfold memcpy
  rw [append_assoc, take_append_of_le_length (by rw [length_take]; omega),
    take_take, Nat.min_eq_left hk]

theorem drop_memcpy (h : offset ≤ block.length) :
    (memcpy block offset src).drop offset = src ++ block.drop (offset + src.length) := by
  unfold memcpy
  have hlen : (block.take offset).length = offset := by
    rw [length_take]
    omega
  rw [append_assoc, drop_append_of_le_length (by omega), drop_of_length_le (by omega), nil_append]

/-- What has been written. -/
theorem slice_memcpy_take {k : ℕ} (h : offset ≤ block.length) (hk : k ≤ src.length) :
    slice (memcpy block offset src) offset k = src.take k := by
  unfold slice
  rw [drop_memcpy h, take_append_of_le_length hk]

/-- What comes after. -/
theorem slice_memcpy_after (h : offset ≤ block.length) {start length : ℕ}
    (hstart : offset + src.length ≤ start) :
    slice (memcpy block offset src) start length = slice block start length := by
  obtain ⟨k, rfl⟩ := Nat.exists_eq_add_of_le hstart
  unfold slice
  congr 1
  rw [Nat.add_assoc offset, ← drop_drop, drop_memcpy h, ← drop_drop,
    drop_left, drop_drop, Nat.add_assoc]

end Memcpy

/-!
## Queues packed into a block of memory

The first `length` cells of a block hold the messages of a queue one after the other.  What the
cells of one message look like is given by a relation `IsFrame message cells`, so that a frame may
have padding.
-/

variable {μ : Type} {IsFrame : μ → List α → Prop}

/-- The first `length` cells of the block are frames of the messages. -/
def Packed (IsFrame : μ → List α → Prop) (block : List α) (length : ℕ) (msgs : List μ) : Prop :=
  length ≤ block.length ∧
    ∃ frames : List (List α), block.take length = frames.flatten ∧ List.Forall₂ IsFrame msgs frames

namespace Packed

variable {block block' : List α} {length n : ℕ} {msg : μ} {msgs : List μ}

theorem nil (IsFrame : μ → List α → Prop) (block : List α) : Packed IsFrame block 0 [] :=
  ⟨Nat.zero_le _, [], rfl, .nil⟩

/-- A frame is added behind the last one. -/
theorem push (h : Packed IsFrame block length msgs) (hkept : block'.take length = block.take length)
    (hroom : length + n ≤ block'.length) (hframe : IsFrame msg (slice block' length n)) :
    Packed IsFrame block' (length + n) (msgs ++ [msg]) := by
  obtain ⟨-, frames, hframes, hall⟩ := h
  refine ⟨hroom, frames ++ [slice block' length n], ?_, ?_⟩
  · rw [take_add, hkept, hframes, flatten_append, flatten_singleton]
    rfl
  · exact rel_append hall (.cons hframe .nil)

/-- The first frame is removed and the others are moved to the front. -/
theorem pop (h : Packed IsFrame block length (msg :: msgs)) :
    ∃ n, n ≤ length ∧ IsFrame msg (block.take n) ∧
      ∀ block', length - n ≤ block'.length →
        block'.take (length - n) = slice block n (length - n) →
        Packed IsFrame block' (length - n) msgs := by
  obtain ⟨hlength, frames, hframes, hall⟩ := h
  cases hall with
  | @cons _ frame _ frames hframe hall =>
    have htake : block.take length = frame ++ frames.flatten := by
      rw [hframes, flatten_cons]
    have hn : frame.length ≤ length := by
      have := congrArg List.length htake
      rw [length_take, length_append] at this
      omega
    refine ⟨frame.length, hn, ?_, ?_⟩
    · have : block.take frame.length = frame := by
        rw [← Nat.min_eq_left hn, ← take_take, htake, take_left]
      rwa [this]
    · intro block' hroom hmoved
      refine ⟨hroom, frames, ?_, hall⟩
      rw [hmoved, slice, ← drop_take, htake, drop_left]

end Packed

end TASQuake.Lib
