import Mathlib.Data.List.Basic
import Mathlib.Tactic.NormNum

/-!
# Values of fixed size

A plain type is one whose values are images of a fixed number of bytes, such as a machine
integer or a record of them.  `Pod α` describes how the elements of `α` lie in memory; `valid`
are those that are values of the machine type, which come back from their bytes.  A vector of
such values is the concatenation of its elements.
-/

namespace TASQuake.Lib

open List

/-!
## Length-prefixed framing

A message on a byte stream is a 4-byte little-endian length followed by the bytes.  `frames`
is the stream of a list of messages, and `headerCut msgs n` tells whether the stream, cut
after `n` bytes, is cut strictly inside one of the lengths.
-/

/-! ## Little-endian words -/

/-- The four bytes of a number below `2 ^ 32`, the lowest first. -/
def le32 (n : ℕ) : List UInt8 :=
  [UInt8.ofNat n, UInt8.ofNat (n / 2 ^ 8), UInt8.ofNat (n / 2 ^ 16), UInt8.ofNat (n / 2 ^ 24)]

/-- The number that little-endian bytes stand for. -/
def ofLe (bytes : List UInt8) : ℕ := bytes.foldr (fun b n => b.toNat + 2 ^ 8 * n) 0

@[simp] theorem length_le32 (n : ℕ) : (le32 n).length = 4 := rfl

theorem ofLe_le32 {n : ℕ} (h : n < 2 ^ 32) : ofLe (le32 n) = n := by
  simp only [ofLe, le32, foldr_cons, foldr_nil, UInt8.toNat_ofNat']
  omega

/-! ## Streams of messages -/

/-- A message with its length. -/
def framed (msg : List UInt8) : List UInt8 := le32 msg.length ++ msg

/-- The stream of a list of messages. -/
def frames (msgs : List (List UInt8)) : List UInt8 := msgs.flatMap framed

@[simp] theorem frames_nil : frames [] = [] := rfl

theorem frames_cons (msg : List UInt8) (msgs : List (List UInt8)) :
    frames (msg :: msgs) = le32 msg.length ++ (msg ++ frames msgs) := by
  unfold frames framed
  rw [flatMap_cons, append_assoc]

theorem length_frames_cons (msg : List UInt8) (msgs : List (List UInt8)) :
    (frames (msg :: msgs)).length = 4 + msg.length + (frames msgs).length := by
  rw [frames_cons, length_append, length_append, length_le32]
  omega

theorem length_frames (msgs : List (List UInt8)) :
    (frames msgs).length = (msgs.map fun msg => 4 + msg.length).sum := by
  induction msgs with
  | nil => rfl
  | cons msg msgs ih => rw [length_frames_cons, map_cons, sum_cons, ih]

/-- Cutting the stream after `n` bytes cuts through a length. -/
def headerCut : List (List UInt8) → ℕ → Bool
  | [], _ => false
  | msg :: msgs, n =>
    if n < 4 + msg.length then decide (0 < n ∧ n < 4) else headerCut msgs (n - (4 + msg.length))

@[simp] theorem headerCut_zero (msgs : List (List UInt8)) : headerCut msgs 0 = false := by
  cases msgs with
  | nil => rfl
  | cons msg msgs => simp [headerCut]

/-- The end of the stream is not inside a length. -/
theorem headerCut_length (msgs : List (List UInt8)) :
    headerCut msgs (frames msgs).length = false := by
  induction msgs with
  | nil => rfl
  | cons msg msgs ih =>
    have hlen := length_frames_cons msg msgs
    unfold headerCut
    rw [if_neg (by omega), hlen, Nat.add_sub_cancel_left]
    exact ih

/-- The position of the length that is cut. -/
theorem headerCut_iff {msgs : List (List UInt8)} {n : ℕ} :
    headerCut msgs n = true ↔
      ∃ before msg after, msgs = before ++ msg :: after ∧ (frames before).length < n ∧
        n < (frames before).length + 4 := by
  induction msgs generalizing n with
  | nil => simp [headerCut]
  | cons msg msgs ih =>
    unfold headerCut
    constructor
    · intro h
      split at h
      · exact ⟨[], msg, msgs, rfl, by simpa using of_decide_eq_true h⟩
      · obtain ⟨before, m, after, rfl, hlo, hhi⟩ := ih.mp h
        refine ⟨msg :: before, m, after, rfl, ?_⟩
        rw [length_frames_cons]
        omega
    · rintro ⟨before, m, after, heq, hlo, hhi⟩
      cases before with
      | nil =>
        rw [frames_nil, length_nil] at hlo hhi
        rw [if_pos (by omega)]
        exact decide_eq_true (by omega)
      | cons b before =>
        obtain ⟨rfl, rfl⟩ := cons.inj heq
        rw [length_frames_cons] at hlo hhi
        rw [if_neg (by omega)]
        exact ih.mpr ⟨before, m, after, rfl, by omega, by omega⟩

/-- The image in memory of a type. -/
structure Pod (α : Type) where
  size : ℕ
  valid : α → Prop
  toBytes : α → List UInt8
  ofBytes : List UInt8 → α
  size_pos : 0 < size
  length_toBytes : ∀ a, (toBytes a).length = size
  ofBytes_toBytes : ∀ a, valid a → ofBytes (toBytes a) = a

namespace Pod

variable {α β : Type}

/-! ## Machine types -/

/-- A byte. -/
def uint8 : Pod UInt8 where
  size := 1
  valid := fun _ => True
  toBytes := fun b => [b]
  ofBytes := fun bytes => bytes.headD 0
  size_pos := by norm_num
  length_toBytes := fun _ => rfl
  ofBytes_toBytes := fun _ _ => rfl

/-- A 32-bit word. -/
def uint32 : Pod ℕ where
  size := 4
  valid := fun n => n < 2 ^ 32
  toBytes := le32
  ofBytes := ofLe
  size_pos := by norm_num
  length_toBytes := length_le32
  ofBytes_toBytes := fun _ h => ofLe_le32 h

/-- A 32-bit integer in two's complement. -/
def int32 : Pod Int where
  size := 4
  valid := fun i => -2 ^ 31 ≤ i ∧ i < 2 ^ 31
  toBytes := fun i => le32 (i % 2 ^ 32).toNat
  ofBytes := fun bytes =>
    if ofLe bytes < 2 ^ 31 then (ofLe bytes : Int) else (ofLe bytes : Int) - 2 ^ 32
  size_pos := by norm_num
  length_toBytes := fun _ => length_le32 _
  ofBytes_toBytes := by
    intro i h
    rw [ofLe_le32 (by omega)]
    split <;> omega

/-- An integer that is kept in a 32-bit word. -/
def word : Pod Int where
  size := 4
  valid := fun i => 0 ≤ i ∧ i < 2 ^ 32
  toBytes := fun i => le32 (i % 2 ^ 32).toNat
  ofBytes := fun bytes => ofLe bytes
  size_pos := by norm_num
  length_toBytes := fun _ => length_le32 _
  ofBytes_toBytes := by
    intro i h
    rw [ofLe_le32 (by omega)]
    omega

/-- A boolean in one byte. -/
def bool : Pod Bool where
  size := 1
  valid := fun _ => True
  toBytes := fun b => [if b then 1 else 0]
  ofBytes := fun bytes => bytes.head? != some 0
  size_pos := by norm_num
  length_toBytes := fun _ => rfl
  ofBytes_toBytes := by
    intro b _
    cases b <;> rfl

/-- An enumeration stored as the 32-bit number of its value. -/
def enum [DecidableEq α] (values : List α) (fallback : α) (h : values.length < 2 ^ 32) : Pod α where
  size := 4
  valid := fun a => a ∈ values
  toBytes := fun a => le32 (values.idxOf a)
  ofBytes := fun bytes => values.getD (ofLe bytes) fallback
  size_pos := by norm_num
  length_toBytes := fun _ => length_le32 _
  ofBytes_toBytes := by
    intro a ha
    have hlt := idxOf_lt_length_of_mem ha
    rw [ofLe_le32 (by omega), getD_eq_getElem?_getD, getElem?_eq_getElem hlt,
      Option.getD_some, getElem_idxOf]

/-- Bytes between the members of a record. -/
def padding (n : ℕ) (h : 0 < n) : Pod Unit where
  size := n
  valid := fun _ => True
  toBytes := fun _ => replicate n 0
  ofBytes := fun _ => ()
  size_pos := h
  length_toBytes := fun _ => length_replicate
  ofBytes_toBytes := fun _ _ => rfl

/-- What it takes to bring a member of eight bytes behind one of four to its boundary. -/
theorem four_pos : 0 < 4 := by decide

/-! ## Records and vectors -/

/-- Two members one after the other. -/
def pair (p : Pod α) (q : Pod β) : Pod (α × β) where
  size := p.size + q.size
  valid := fun x => p.valid x.1 ∧ q.valid x.2
  toBytes := fun x => p.toBytes x.1 ++ q.toBytes x.2
  ofBytes := fun bytes => (p.ofBytes (bytes.take p.size), q.ofBytes (bytes.drop p.size))
  size_pos := Nat.add_pos_left p.size_pos _
  length_toBytes := by
    intro x
    rw [length_append, p.length_toBytes, q.length_toBytes]
  ofBytes_toBytes := by
    intro x h
    have htake : (p.toBytes x.1 ++ q.toBytes x.2).take p.size = p.toBytes x.1 :=
      take_left' (p.length_toBytes x.1)
    have hdrop : (p.toBytes x.1 ++ q.toBytes x.2).drop p.size = q.toBytes x.2 :=
      drop_left' (p.length_toBytes x.1)
    rw [htake, hdrop, p.ofBytes_toBytes x.1 h.1, q.ofBytes_toBytes x.2 h.2]

/-- A record, given by its members. -/
def record (p : Pod α) (make : α → β) (members : β → α) (h : ∀ b, make (members b) = b) :
    Pod β where
  size := p.size
  valid := fun b => p.valid (members b)
  toBytes := fun b => p.toBytes (members b)
  ofBytes := fun bytes => make (p.ofBytes bytes)
  size_pos := p.size_pos
  length_toBytes := fun b => p.length_toBytes (members b)
  ofBytes_toBytes := by
    intro b hb
    rw [p.ofBytes_toBytes _ hb, h]

/-- The bytes of a vector. -/
def vecBytes (p : Pod α) (vec : List α) : List UInt8 := vec.flatMap p.toBytes

/-- A vector of `n` elements from its bytes. -/
def ofVecBytes (p : Pod α) : ℕ → List UInt8 → List α
  | 0, _ => []
  | n + 1, bytes => p.ofBytes (bytes.take p.size) :: ofVecBytes p n (bytes.drop p.size)

theorem length_vecBytes (p : Pod α) (vec : List α) :
    (p.vecBytes vec).length = vec.length * p.size := by
  induction vec with
  | nil => simp [vecBytes]
  | cons a vec ih =>
    unfold vecBytes at ih ⊢
    rw [flatMap_cons, length_append, p.length_toBytes, ih, length_cons, Nat.succ_mul, Nat.add_comm]

/-- A vector comes back from its bytes. -/
theorem ofVecBytes_vecBytes (p : Pod α) {vec : List α} (h : ∀ a ∈ vec, p.valid a) :
    p.ofVecBytes vec.length (p.vecBytes vec) = vec := by
  induction vec with
  | nil => rfl
  | cons a vec ih =>
    have htake : (p.toBytes a ++ p.vecBytes vec).take p.size = p.toBytes a :=
      take_left' (p.length_toBytes a)
    have hdrop : (p.toBytes a ++ p.vecBytes vec).drop p.size = p.vecBytes vec :=
      drop_left' (p.length_toBytes a)
    have hcons : p.vecBytes (a :: vec) = p.toBytes a ++ p.vecBytes vec := flatMap_cons
    rw [hcons, length_cons, ofVecBytes, htake, hdrop, p.ofBytes_toBytes a (h a mem_cons_self),
      ih fun b hb => h b (mem_cons_of_mem _ hb)]

end Pod

end TASQuake.Lib
