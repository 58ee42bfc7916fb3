import TASQuake.Analysis.IpcFraming
import TASQuake.Analysis.PlainIo
import TASQuake.Analysis.ScriptRoundTrip
import TASQuake.Model.IpcCodec
import TASQuake.Model.MultiGame

/-!
# A message is decoded into what has been encoded

Every member of a message is one of three kinds of chunks: bytes of a fixed number, a vector with
its length, or a script with its length.  A chunk is written after whatever the buffer holds
(`Chunk.exists_write`), and a reader that stands before the image of a list of chunks reads the
first of them and then stands before the others (`Shows`).

`Finalize` cuts the buffer off behind every script, and doubling starts anew from there
(`Chunk.sizeAfter`).  `Fits` follows these sizes through a message.
-/

namespace TASQuake

open Lib Io BufferWriter TASScript PredictionData Layout Option List
open Pod (uint32 bool)

variable {F R A : Type} {env : TextEnv F} {finite : F → Prop}

/-! ## Chunks -/

/-- A script that the loader has produced, with frames that do not decrease and values that are
written and read back. -/
def LoadedScript (env : TextEnv F) (finite : F → Prop) (blocks : List (FrameBlock F)) : Prop :=
  (∃ input, (loadFromString env [] input).rval = true ∧
    (loadFromString env [] input).blocks = blocks) ∧
  (blocks.map FrameBlock.frame).Pairwise (· ≤ ·) ∧
  ∀ b ∈ blocks, ∀ cvar ∈ b.convars.values, finite cvar.2

theorem LoadedScript.accepted {blocks : List (FrameBlock F)} (h : LoadedScript env finite blocks) :
    Accepted env blocks := by
  obtain ⟨⟨input, hrval, rfl⟩, -⟩ := h
  exact accepted_of_loadFromString hrval

/-- What a writer is asked to write at once. -/
inductive Chunk (F : Type) where
  | bytes (content : List UInt8)
  | vec (content : List UInt8)
  | script (blocks : List (FrameBlock F))

namespace Chunk

def write (env : TextEnv F) (w : BufferWriter) : Chunk F → Option BufferWriter
  | bytes content => w.writeBytes content
  | vec content => w.writeVec content
  | script blocks => writeToMemory env blocks w

def length (env : TextEnv F) : Chunk F → ℕ
  | bytes content => content.length
  | vec content => 4 + content.length
  | script blocks => 4 + (text env 0 blocks).flatten.length

/-- The bytes that stand in the buffer for a chunk. -/
def Image (env : TextEnv F) : Chunk F → List UInt8 → Prop
  | bytes content, image => image = content
  | vec content, image => image = framed content
  | script blocks, image =>
    ∃ pieces, List.Forall₂ BufferWriter.Printed (text env 0 blocks) pieces ∧
      pieces.flatten.length = (text env 0 blocks).flatten.length ∧
      image = framed pieces.flatten

/-- No line is too long for `vsnprintf`. -/
def Short (env : TextEnv F) : Chunk F → Prop
  | script blocks => ∀ text ∈ TASScript.text env 0 blocks, text.length < 2 ^ 31
  | _ => True

/-- The size that the doubling starts from after a chunk that ends at `stop`. -/
def sizeAfter (size stop : ℕ) : Chunk F → ℕ
  | script _ => stop
  | _ => size

/-- Scripts have been loaded. -/
def Good (env : TextEnv F) (finite : F → Prop) : Chunk F → Prop
  | script blocks => LoadedScript env finite blocks
  | _ => True

def writeAll (env : TextEnv F) (w : BufferWriter) (chunks : List (Chunk F)) :
    Option BufferWriter := chunks.foldlM (fun w chunk => chunk.write env w) w

def totalLength (env : TextEnv F) (chunks : List (Chunk F)) : ℕ :=
  (chunks.map (length env)).sum

def Images (env : TextEnv F) : List (Chunk F) → List UInt8 → Prop
  | [], image => image = []
  | chunk :: chunks, image =>
    ∃ first rest, image = first ++ rest ∧ chunk.Image env first ∧ Images env chunks rest

end Chunk

/-! ## Room -/

/-- Doubling a size reaches a target. -/
def ReachesFrom (size target : ℕ) : Prop := ∃ k, target ≤ doubled (max 1 size) k

theorem reachesFrom_of_le {size target : ℕ} (hsize : size < 2 ^ 32) (h : target ≤ 2 ^ 31) :
    ReachesFrom size target :=
  reaches_of_le (w := ⟨[], size, 0⟩) hsize h

/-- Every chunk ends at a 32-bit offset that doubling the size of the buffer reaches. -/
def Fits (env : TextEnv F) : ℕ → ℕ → List (Chunk F) → Prop
  | _, _, [] => True
  | size, offset, chunk :: chunks =>
    let stop := offset + chunk.length env
    stop < 2 ^ 32 ∧ ReachesFrom size stop ∧ chunk.Short env ∧
      Fits env (chunk.sizeAfter size stop) stop chunks

/-- Doubling the size of the buffer reaches from its offset on what doubling `size` reaches. -/
def Linked (size : ℕ) (w : BufferWriter) : Prop :=
  ∀ target, w.offset ≤ target → (w.Reaches target ↔ ReachesFrom size target)

theorem linked_self (w : BufferWriter) : Linked w.size w := fun _ _ => Iff.rfl

theorem linked_of_grown {size n : ℕ} {w w' : BufferWriter} (hlink : Linked size w)
    (hgrown : BufferWriter.Grown w w') (hoff : w'.offset = w.offset + n)
    (hreach : ∀ target, w.offset + n ≤ target → target < 2 ^ 32 → w.Reaches target →
      w'.Reaches target) : Linked size w' := by
  intro target htarget
  rw [hoff] at htarget
  refine ⟨fun h => (hlink target (by omega)).mp (hgrown.reaches target h), fun h => ?_⟩
  have hlt : target < 2 ^ 32 := by
    obtain ⟨k, hk⟩ := h
    exact lt_of_le_of_lt hk (doubled_lt _ _)
  exact hreach target htarget hlt ((hlink target (by omega)).mpr h)

/-! ## Writing -/

namespace Chunk

variable {w w' : BufferWriter} {size : ℕ} {chunk : Chunk F} {chunks : List (Chunk F)}

theorem exists_write (hgood : chunk.Good env finite) (h : w.Valid) (hlink : Linked size w)
    (hend : w.offset + chunk.length env < 2 ^ 32)
    (hreach : ReachesFrom size (w.offset + chunk.length env)) (hshort : chunk.Short env) :
    ∃ w' image, chunk.write env w = some w' ∧ BufferWriter.Appended w w' image ∧
      image.length = chunk.length env ∧ chunk.Image env image ∧
      Linked (chunk.sizeAfter size (w.offset + chunk.length env)) w' := by
  have hreach' := (hlink _ (Nat.le_add_right _ _)).mpr hreach
  cases chunk with
  | bytes content =>
    obtain ⟨w', hw', happended, -⟩ := exists_writeBytes h le_rfl hend hreach'
    refine ⟨w', content, hw', happended, rfl, rfl, linked_of_grown hlink
      (grown_writeBytes h hw').1 happended.offset_eq fun target hle hlt hr => ?_⟩
    obtain ⟨w₂, hw₂, -, hr₂⟩ := exists_writeBytes h hle hlt hr
    cases hw'.symm.trans hw₂
    exact hr₂
  | vec content =>
    have hlength : (framed content).length = 4 + content.length := by
      unfold framed
      rw [length_append, length_le32]
    obtain ⟨w', hw', happended, -⟩ := exists_writeVec h le_rfl hend hreach'
    refine ⟨w', framed content, hw', happended, hlength, rfl, linked_of_grown hlink
      (grown_writeVec h hw').1 (hlength ▸ happended.offset_eq)
      fun target hle hlt hr => ?_⟩
    obtain ⟨w₂, hw₂, -, hr₂⟩ := exists_writeVec h hle hlt hr
    cases hw'.symm.trans hw₂
    exact hr₂
  | script blocks =>
    have hroom : TASScript.Room w (text env 0 blocks) :=
      ⟨hshort, by rw [Nat.add_assoc]; exact hend, by rw [Nat.add_assoc]; exact hreach'⟩
    obtain ⟨w', pieces, hw', hvalid, hoff, htake, hhead, hprinted, hbody⟩ :=
      exists_writeToMemory h (text_ne_nil hgood.accepted) hroom
    have hlength : pieces.flatten.length = (text env 0 blocks).flatten.length := by
      rw [← hbody]
      have hle := hvalid.offset_le
      have hmem := hvalid.size_le
      exact length_slice (by omega)
    have hframed : (framed pieces.flatten).length =
        4 + (text env 0 blocks).flatten.length := by
      unfold framed
      rw [length_append, length_le32, hlength]
    refine ⟨w', framed pieces.flatten, hw', ⟨⟨hvalid, ?_, htake⟩, ?_⟩, hframed,
      ⟨pieces, hprinted, hlength, rfl⟩, ?_⟩
    · rw [hoff, hframed, Nat.add_assoc]
    · rw [hframed, slice_add, hhead, hbody]
      unfold framed
      rw [hlength]
    · -- the buffer ends behind the script
      obtain ⟨-, hsize⟩ := finalized_of_writeToMemory h hw'
      have hstop : w'.size = w.offset + (script blocks).length env := by
        rw [hsize, hoff, Nat.add_assoc]
        rfl
      rw [← hstop]
      exact linked_self w'

theorem write_eq_some (h : w.Valid) (hw : chunk.write env w = some w') :
    w'.Valid ∧ w'.offset = (w.offset + chunk.length env) % 2 ^ 32 ∧ w.Reaches w'.offset ∧
      chunk.Short env := by
  cases chunk with
  | bytes content =>
    obtain ⟨hgrown, hoff⟩ := grown_writeBytes h hw
    exact ⟨hgrown.valid, hoff, hgrown.reaches _ hgrown.valid.reaches_offset, trivial⟩
  | vec content =>
    obtain ⟨hgrown, hoff⟩ := grown_writeVec h hw
    exact ⟨hgrown.valid, hoff, hgrown.reaches _ hgrown.valid.reaches_offset, trivial⟩
  | script blocks =>
    obtain ⟨hreach, -, hoff, hshort⟩ := room_of_writeToMemory h hw
    rw [Nat.add_assoc] at hoff
    exact ⟨(finalized_of_writeToMemory h hw).1, hoff, hreach, hshort⟩

theorem writeAll_cons (w : BufferWriter) (chunk : Chunk F) (chunks : List (Chunk F)) :
    writeAll env w (chunk :: chunks) = (chunk.write env w).bind (writeAll env · chunks) := by
  unfold writeAll
  rw [foldlM_cons]
  rfl

theorem writeAll_singleton (w : BufferWriter) (chunk : Chunk F) :
    writeAll env w [chunk] = chunk.write env w := by
  rw [writeAll_cons]
  exact bind_fun_some _

theorem totalLength_cons (chunk : Chunk F) (chunks : List (Chunk F)) :
    totalLength env (chunk :: chunks) = chunk.length env + totalLength env chunks := by
  unfold totalLength
  rw [map_cons, sum_cons]

theorem totalLength_append (chunks chunks' : List (Chunk F)) :
    totalLength env (chunks ++ chunks') = totalLength env chunks + totalLength env chunks' := by
  unfold totalLength
  rw [map_append, sum_append]

theorem exists_writeAll (hgood : ∀ chunk ∈ chunks, chunk.Good env finite) (h : w.Valid)
    (hlink : Linked size w) (hfits : Fits env size w.offset chunks) :
    ∃ w' image, writeAll env w chunks = some w' ∧ BufferWriter.Appended w w' image ∧
      image.length = totalLength env chunks ∧ Images env chunks image := by
  induction chunks generalizing w size with
  | nil => exact ⟨w, [], rfl, ⟨⟨h, rfl, rfl⟩, rfl⟩, rfl, rfl⟩
  | cons chunk chunks ih =>
    obtain ⟨hend, hreach, hshort, hrest⟩ := hfits
    obtain ⟨w₁, first, hw₁, happended₁, hlength₁, himage₁, hlink₁⟩ :=
      exists_write (hgood chunk mem_cons_self) h hlink hend hreach hshort
    have hoff₁ := happended₁.offset_eq
    rw [hlength₁] at hoff₁
    rw [← hoff₁] at hrest hlink₁
    obtain ⟨w', rest, hw', happended, hlength, himages⟩ :=
      ih (fun c hc => hgood c (mem_cons_of_mem _ hc)) happended₁.valid hlink₁ hrest
    refine ⟨w', first ++ rest, ?_, happended₁.append happended, ?_, first, rest, rfl, himage₁,
      himages⟩
    · rw [writeAll_cons, hw₁]
      exact hw'
    · rw [length_append, hlength₁, hlength, totalLength_cons]

theorem valid_writeAll (h : w.Valid) (hw : writeAll env w chunks = some w') : w'.Valid := by
  induction chunks generalizing w with
  | nil =>
    cases hw
    exact h
  | cons chunk chunks ih =>
    rw [writeAll_cons, bind_eq_some_iff] at hw
    obtain ⟨w₁, hw₁, hw'⟩ := hw
    exact ih (write_eq_some h hw₁).1 hw'

theorem fits_of_writeAll (hgood : ∀ chunk ∈ chunks, chunk.Good env finite) (h : w.Valid)
    (hlink : Linked size w) (hw : writeAll env w chunks = some w')
    (hoff : w'.offset = w.offset + totalLength env chunks) : Fits env size w.offset chunks := by
  induction chunks generalizing w size with
  | nil => trivial
  | cons chunk chunks ih =>
    have hvalid := valid_writeAll h hw
    have hle := hvalid.offset_le
    have hlt := hvalid.size_lt
    rw [totalLength_cons] at hoff
    rw [writeAll_cons, bind_eq_some_iff] at hw
    obtain ⟨w₁, hw₁, hw'⟩ := hw
    obtain ⟨hv₁, hoff₁, hreach, hshort⟩ := write_eq_some h hw₁
    rw [Nat.mod_eq_of_lt (by omega)] at hoff₁
    have hreach' : ReachesFrom size (w.offset + chunk.length env) := by
      rw [← hoff₁]
      exact (hlink _ (by omega)).mp hreach
    obtain ⟨w₂, -, hw₂, -, -, -, hlink₁⟩ :=
      exists_write (hgood chunk mem_cons_self) h hlink (by omega) hreach' hshort
    cases hw₁.symm.trans hw₂
    refine ⟨by omega, hreach', hshort, ?_⟩
    rw [← hoff₁] at hlink₁ ⊢
    exact ih (fun c hc => hgood c (mem_cons_of_mem _ hc)) hv₁ hlink₁ hw' (by omega)

end Chunk

/-! ## Reading -/

/-- The reader stands before the image of some chunks. -/
def Shows (env : TextEnv F) (chunks : List (Chunk F)) (r : BufferReader) : Prop :=
  ∃ image, r.At image ∧ Chunk.Images env chunks image

namespace Shows

variable {chunk : Chunk F} {chunks : List (Chunk F)} {r : BufferReader} {α : Type}

theorem cons (h : Shows env (chunk :: chunks) r) :
    ∃ image, r.At image ∧ chunk.Image env image ∧ Shows env chunks (r.skip image.length) := by
  obtain ⟨_, hat, first, rest, rfl, himage, himages⟩ := h
  obtain ⟨hfirst, hrest⟩ := hat.append
  exact ⟨first, hfirst, himage, rest, hrest, himages⟩

theorem readPod (pod : Pod α) {a : α} (h : Shows env (.bytes (pod.toBytes a) :: chunks) r)
    (ha : pod.valid a) :
    r.readPod pod = some (a, r.skip (pod.toBytes a).length) ∧
      Shows env chunks (r.skip (pod.toBytes a).length) := by
  obtain ⟨_, hat, rfl, hrest⟩ := h.cons
  exact ⟨BufferReader.readPod_of_at hat ha, hrest⟩

theorem readPodVec (pod : Pod α) {vec : List α}
    (h : Shows env (.vec (pod.vecBytes vec) :: chunks) r)
    (hvec : ∀ a ∈ vec, pod.valid a) :
    r.readPodVec pod = some (vec, r.skip (4 + (pod.vecBytes vec).length)) ∧
      Shows env chunks (r.skip (4 + (pod.vecBytes vec).length)) := by
  obtain ⟨_, hat, rfl, hrest⟩ := h.cons
  refine ⟨BufferReader.readPodVec_of_at hat hvec, ?_⟩
  unfold framed at hrest
  rw [length_append, length_le32] at hrest
  exact hrest

theorem loadFromMemory (henv : env.RoundTrips finite) {blocks : List (FrameBlock F)}
    (h : Shows env (.script blocks :: chunks) r) (hscript : LoadedScript env finite blocks) :
    loadFromMemory env [] r =
        some ⟨true, blocks, r.skip ((Chunk.script blocks).length env), []⟩ ∧
      Shows env chunks (r.skip ((Chunk.script blocks).length env)) := by
  obtain ⟨_, hat, ⟨pieces, hprinted, hlength, rfl⟩, hrest⟩ := h.cons
  have hframed : (framed pieces.flatten).length = (Chunk.script blocks).length env := by
    unfold framed
    rw [length_append, length_le32, hlength]
    rfl
  rw [hframed] at hrest
  refine ⟨?_, hrest⟩
  have hroom := hat.room
  have hle := hat.size_le
  have hlt := hat.size_lt
  unfold framed at hat
  obtain ⟨hhead, hbody⟩ := hat.append
  have hhead' := hhead.slice_eq
  have hbody' := hbody.slice_eq
  rw [hlength, length_le32] at hhead'
  rw [hlength] at hbody'
  rw [hframed] at hroom
  have hload := loadFromMemory_of_printed henv hscript.accepted hscript.2.1 hscript.2.2
    hprinted (by rw [Nat.add_assoc]; exact hroom) hlt hle hhead' hbody'
  rw [Nat.add_assoc] at hload
  exact hload

end Shows

theorem skip_totalLength (r : BufferReader) (chunks : List (Chunk F)) :
    r.skip (Chunk.totalLength env chunks) =
      chunks.foldl (fun r chunk => r.skip (chunk.length env)) r := by
  induction chunks generalizing r with
  | nil => rfl
  | cons chunk chunks ih =>
    rw [Chunk.totalLength_cons, ← BufferReader.skip_skip, ih, foldl_cons]

/-! ## Settings -/

theorem goalPod_valid (goal : OptimizerGoal) : goalPod.valid goal := by
  cases goal <;> simp [goalPod, Pod.enum]

theorem algorithmPod_valid (algorithm : AlgorithmEnum) : algorithmPod.valid algorithm := by
  cases algorithm <;> simp [algorithmPod, Pod.enum]

namespace SettingsRecord

/-- The members are values of their types, and there are no pointers to algorithms. -/
structure Sendable (layout : Layout R) (s : SettingsRecord R A) : Prop where
  targetPos : layout.vector.valid s.targetPos
  resetToBestIterations : uint32.valid s.resetToBestIterations
  giveUpAfterNoProgress : uint32.valid s.giveUpAfterNoProgress
  endOffset : Pod.int32.valid s.endOffset
  frames : Pod.int32.valid s.frames
  minTotalHP : Pod.int32.valid s.minTotalHP
  entity : uint32.valid s.entity
  inputNodes : ∀ node ∈ s.inputNodes, layout.vector.valid node
  algorithms : s.algorithms = []

/-- The members in the order in which they are written. -/
def chunks (layout : Layout R) (s : SettingsRecord R A) : List (Chunk F) :=
  [.bytes (goalPod.toBytes s.goal), .bytes (Pod.int32.toBytes s.endOffset),
    .bytes (Pod.int32.toBytes s.frames), .bytes (uint32.toBytes s.giveUpAfterNoProgress),
    .bytes (uint32.toBytes s.resetToBestIterations), .bytes (bool.toBytes s.useNodes),
    .bytes (bool.toBytes s.secondaryGoals), .bytes (Pod.int32.toBytes s.minTotalHP),
    .bytes (uint32.toBytes s.entity), .bytes (layout.vector.toBytes s.targetPos),
    .vec (layout.vector.vecBytes s.inputNodes), .vec (algorithmPod.vecBytes s.algorithmData)]

/-- What reading restores; the pointers of the object stay. -/
def restored (s old : SettingsRecord R A) : SettingsRecord R A :=
  { s with algorithms := old.algorithms }

variable {layout : Layout R} {s : SettingsRecord R A}

theorem writeToBuffer_eq (h : s.Sendable layout) (w : BufferWriter) :
    s.writeToBuffer layout w = Chunk.writeAll env w (s.chunks layout) := by
  unfold writeToBuffer chunks Chunk.writeAll
  simp only [h.algorithms, isEmpty_nil, if_true, foldlM_cons, foldlM_nil,
    Chunk.write, writePod, writePodVec, Option.pure_def]

theorem readFromBuffer_of_shows (hsend : s.Sendable layout) (old : SettingsRecord R A)
    {rest : List (Chunk F)} {r : BufferReader} (h : Shows env (s.chunks layout ++ rest) r) :
    old.readFromBuffer layout r =
        some (s.restored old, r.skip (Chunk.totalLength env (s.chunks layout))) ∧
      Shows env rest (r.skip (Chunk.totalLength env (s.chunks layout))) := by
  obtain ⟨h₁, h⟩ := h.readPod goalPod (goalPod_valid _)
  obtain ⟨h₂, h⟩ := h.readPod .int32 hsend.endOffset
  obtain ⟨h₃, h⟩ := h.readPod .int32 hsend.frames
  obtain ⟨h₄, h⟩ := h.readPod .uint32 hsend.giveUpAfterNoProgress
  obtain ⟨h₅, h⟩ := h.readPod .uint32 hsend.resetToBestIterations
  obtain ⟨h₆, h⟩ := h.readPod .bool trivial
  obtain ⟨h₇, h⟩ := h.readPod .bool trivial
  obtain ⟨h₈, h⟩ := h.readPod .int32 hsend.minTotalHP
  obtain ⟨h₉, h⟩ := h.readPod .uint32 hsend.entity
  obtain ⟨h₁₀, h⟩ := h.readPod layout.vector hsend.targetPos
  obtain ⟨h₁₁, h⟩ := h.readPodVec layout.vector hsend.inputNodes
  obtain ⟨h₁₂, h⟩ := h.readPodVec algorithmPod fun a _ => algorithmPod_valid a
  rw [skip_totalLength]
  refine ⟨?_, h⟩
  unfold readFromBuffer
  exact (bind_of_eq h₁ _).trans <| (bind_of_eq h₂ _).trans <| (bind_of_eq h₃ _).trans <|
    (bind_of_eq h₄ _).trans <| (bind_of_eq h₅ _).trans <| (bind_of_eq h₆ _).trans <|
    (bind_of_eq h₇ _).trans <| (bind_of_eq h₈ _).trans <| (bind_of_eq h₉ _).trans <|
    (bind_of_eq h₁₀ _).trans <| (bind_of_eq h₁₁ _).trans <| bind_of_eq h₁₂ _

end SettingsRecord

/-! ## Predictions -/

namespace PredictionData

/-- The members are values of their types. -/
structure Sendable (layout : Layout R) (data : PredictionData (Vec R)) : Prop where
  startFrame : Pod.int32.valid data.startFrame
  endFrame : Pod.int32.valid data.endFrame
  fbdata : ∀ index ∈ data.fbdata, blockIndexPod.valid index
  points : ∀ point ∈ data.points, layout.vector.valid point

/-- The members in the order in which they are written. -/
def chunks (layout : Layout R) (data : PredictionData (Vec R)) : List (Chunk F) :=
  [.bytes (Pod.int32.toBytes data.startFrame), .bytes (Pod.int32.toBytes data.endFrame),
    .vec (blockIndexPod.vecBytes data.fbdata), .vec (layout.vector.vecBytes data.points)]

variable {layout : Layout R} {data : PredictionData (Vec R)}

theorem writeToMemory_eq (w : BufferWriter) :
    data.writeToMemory layout w = Chunk.writeAll env w (data.chunks layout) := by
  unfold writeToMemory chunks Chunk.writeAll
  simp only [foldlM_cons, foldlM_nil, Chunk.write, writePod,
    writePodVec, Option.pure_def, bind_eq_bind, bind_fun_some]

theorem loadFromMemory_of_shows (hsend : data.Sendable layout) {rest : List (Chunk F)}
    {r : BufferReader} (h : Shows env (data.chunks layout ++ rest) r) :
    loadFromMemory layout r =
        some (data, r.skip (Chunk.totalLength env (data.chunks layout))) ∧
      Shows env rest (r.skip (Chunk.totalLength env (data.chunks layout))) := by
  obtain ⟨h₁, h⟩ := h.readPod .int32 hsend.startFrame
  obtain ⟨h₂, h⟩ := h.readPod .int32 hsend.endFrame
  obtain ⟨h₃, h⟩ := h.readPodVec blockIndexPod hsend.fbdata
  obtain ⟨h₄, h⟩ := h.readPodVec layout.vector hsend.points
  rw [skip_totalLength]
  refine ⟨?_, h⟩
  unfold loadFromMemory
  exact (bind_of_eq h₁ _).trans <| (bind_of_eq h₂ _).trans <| (bind_of_eq h₃ _).trans <|
    bind_of_eq h₄ _

end PredictionData

/-! ## Runs -/

namespace OptimizerRun

/-- The members that are written are values of their types, and the script has been loaded. -/
structure Sendable (layout : Layout R) (env : TextEnv F) (finite : F → Prop)
    (run : OptimizerRun F R) : Prop where
  efficacy : layout.double.valid run.efficacy
  levelTime : layout.double.valid run.levelTime
  centerPrints : uint32.valid run.centerPrints
  kills : uint32.valid run.kills
  secrets : uint32.valid run.secrets
  items : uint32.valid run.items
  teleportTime : layout.double.valid run.teleportTime
  vecData : ∀ data ∈ run.vecData, layout.frameData.valid data
  script : LoadedScript env finite run.script.blocks

/-- The members in the order in which they are written. -/
def chunks (layout : Layout R) (run : OptimizerRun F R) : List (Chunk F) :=
  [.bytes (layout.double.toBytes run.efficacy), .bytes (bool.toBytes run.finishedLevel),
    .bytes (layout.double.toBytes run.levelTime), .bytes (uint32.toBytes run.centerPrints),
    .bytes (uint32.toBytes run.kills), .bytes (uint32.toBytes run.secrets),
    .bytes (uint32.toBytes run.items), .bytes (bool.toBytes run.died),
    .bytes (layout.double.toBytes run.teleportTime),
    .vec (layout.frameData.vecBytes run.vecData), .script run.script.blocks]

variable {layout : Layout R} {run : OptimizerRun F R}

theorem writeToBuffer_eq (w : BufferWriter) :
    run.writeToBuffer layout env w = Chunk.writeAll env w (run.chunks layout) := by
  unfold writeToBuffer chunks Chunk.writeAll
  simp only [foldlM_cons, foldlM_nil, Chunk.write, writePod,
    writePodVec, Option.pure_def, bind_eq_bind, bind_fun_some]

/-- The bytes that have been written give the run that `readFromBuffer` takes over from a run
sent. -/
theorem readFromReader_of_shows (henv : env.RoundTrips finite)
    (hsend : run.Sendable layout env finite) (old : OptimizerRun F R) {rest : List (Chunk F)}
    {r : BufferReader} (h : Shows env (run.chunks layout ++ rest) r) :
    old.readFromReader layout env r =
        some (old.readFromBuffer run, r.skip (Chunk.totalLength env (run.chunks layout))) ∧
      Shows env rest (r.skip (Chunk.totalLength env (run.chunks layout))) := by
  obtain ⟨h₁, h⟩ := h.readPod layout.double hsend.efficacy
  obtain ⟨h₂, h⟩ := h.readPod .bool trivial
  obtain ⟨h₃, h⟩ := h.readPod layout.double hsend.levelTime
  obtain ⟨h₄, h⟩ := h.readPod .uint32 hsend.centerPrints
  obtain ⟨h₅, h⟩ := h.readPod .uint32 hsend.kills
  obtain ⟨h₆, h⟩ := h.readPod .uint32 hsend.secrets
  obtain ⟨h₇, h⟩ := h.readPod .uint32 hsend.items
  obtain ⟨h₈, h⟩ := h.readPod .bool trivial
  obtain ⟨h₉, h⟩ := h.readPod layout.double hsend.teleportTime
  obtain ⟨h₁₀, h⟩ := h.readPodVec layout.frameData hsend.vecData
  obtain ⟨h₁₁, h⟩ := Shows.loadFromMemory henv h hsend.script
  rw [skip_totalLength]
  refine ⟨?_, h⟩
  unfold readFromReader
  exact (bind_of_eq h₁ _).trans <| (bind_of_eq h₂ _).trans <| (bind_of_eq h₃ _).trans <|
    (bind_of_eq h₄ _).trans <| (bind_of_eq h₅ _).trans <| (bind_of_eq h₆ _).trans <|
    (bind_of_eq h₇ _).trans <| (bind_of_eq h₈ _).trans <| (bind_of_eq h₉ _).trans <|
    (bind_of_eq h₁₀ _).trans <| bind_of_eq h₁₁ _

end OptimizerRun

/-! ## Messages -/

namespace Item

/-- The value can be sent. -/
def Sendable (layout : Layout R) (env : TextEnv F) (finite : F → Prop) : Item F R A → Prop
  | field pod value _ => pod.valid value
  | settings value _ => value.Sendable layout
  | prediction value _ => value.Sendable layout
  | run value _ => value.Sendable layout env finite
  | script value _ => LoadedScript env finite value

def chunks (layout : Layout R) : Item F R A → List (Chunk F)
  | field pod value _ => [.bytes (pod.toBytes value)]
  | settings value _ => value.chunks layout
  | prediction value _ => value.chunks layout
  | run value _ => value.chunks layout
  | script value _ => [.script value]

/-- The object after the value has been read into it. -/
def restored : Item F R A → Item F R A
  | field pod value _ => field pod value value
  | settings value old => settings value (value.restored old)
  | prediction value _ => prediction value value
  | run value old => run value (old.readFromBuffer value)
  | script value _ => script value value

variable {layout : Layout R} {item : Item F R A} {items : List (Item F R A)}

theorem good_of_mem_chunks (h : item.Sendable layout env finite) :
    ∀ chunk ∈ item.chunks layout, chunk.Good env finite := by
  cases item with
  | field pod value old => simp [chunks, Chunk.Good]
  | settings value old => simp [chunks, SettingsRecord.chunks, Chunk.Good]
  | prediction value old => simp [chunks, PredictionData.chunks, Chunk.Good]
  | run value old => simpa [chunks, OptimizerRun.chunks, Chunk.Good] using h.script
  | script value old => simpa [chunks, Chunk.Good, Sendable] using h

theorem write_eq (h : item.Sendable layout env finite) (w : BufferWriter) :
    item.write layout env w = Chunk.writeAll env w (item.chunks layout) := by
  cases item with
  | field pod value old => exact (Chunk.writeAll_singleton w (.bytes (pod.toBytes value))).symm
  | settings value old => exact SettingsRecord.writeToBuffer_eq h w
  | prediction value old => exact writeToMemory_eq w
  | run value old => exact OptimizerRun.writeToBuffer_eq w
  | script value old => exact (Chunk.writeAll_singleton w (.script value)).symm

theorem read_of_shows (henv : env.RoundTrips finite) (hsend : item.Sendable layout env finite)
    {rest : List (Chunk F)} {r : BufferReader} (h : Shows env (item.chunks layout ++ rest) r) :
    item.read layout env r =
        some (item.restored, r.skip (Chunk.totalLength env (item.chunks layout))) ∧
      Shows env rest (r.skip (Chunk.totalLength env (item.chunks layout))) := by
  cases item with
  | field pod value old =>
    rw [skip_totalLength]
    obtain ⟨hread, hrest⟩ := h.readPod pod hsend
    exact ⟨congrArg (Option.map _) hread, hrest⟩
  | settings value old =>
    obtain ⟨hread, hrest⟩ := value.readFromBuffer_of_shows hsend old h
    exact ⟨congrArg (Option.map _) hread, hrest⟩
  | prediction value old =>
    obtain ⟨hread, hrest⟩ := loadFromMemory_of_shows hsend h
    exact ⟨congrArg (Option.map _) hread, hrest⟩
  | run value old =>
    obtain ⟨hread, hrest⟩ := value.readFromReader_of_shows henv hsend old h
    exact ⟨congrArg (Option.map _) hread, hrest⟩
  | script value old =>
    rw [skip_totalLength]
    obtain ⟨hread, hrest⟩ := Shows.loadFromMemory henv h hsend
    exact ⟨congrArg (Option.map _) hread, hrest⟩

theorem writeAll_eq (h : ∀ item ∈ items, item.Sendable layout env finite) (w : BufferWriter) :
    writeAll layout env w items = Chunk.writeAll env w (items.flatMap (chunks layout)) := by
  induction items generalizing w with
  | nil => rfl
  | cons item items ih =>
    unfold writeAll Chunk.writeAll at ih ⊢
    rw [foldlM_cons, flatMap_cons, foldlM_append, write_eq (h item mem_cons_self)]
    unfold Chunk.writeAll
    congr 1
    exact funext fun w' => ih (fun i hi => h i (mem_cons_of_mem _ hi)) w'

theorem readAll_of_shows (henv : env.RoundTrips finite)
    (hsend : ∀ item ∈ items, item.Sendable layout env finite) {r : BufferReader}
    (h : Shows env (items.flatMap (chunks layout)) r) :
    readAll layout env r items = some (items.map restored,
      r.skip (Chunk.totalLength env (items.flatMap (chunks layout)))) := by
  induction items generalizing r with
  | nil => rfl
  | cons item items ih =>
    rw [flatMap_cons] at h ⊢
    obtain ⟨hread, hrest⟩ := read_of_shows henv (hsend item mem_cons_self) h
    have hreadAll := ih (fun i hi => hsend i (mem_cons_of_mem _ hi)) hrest
    unfold readAll
    simp only [hread, hreadAll, bind_eq_bind, bind_some, map_cons,
      BufferReader.skip_skip, Chunk.totalLength_append]

/-- The values of a message are written after what the buffer holds.  Any reader that has the
bytes written before it restores them in its objects, and moves on by the number of these
bytes. -/
def DecodedBack (layout : Layout R) (env : TextEnv F) (items : List (Item F R A))
    (w : BufferWriter) : Prop :=
  ∃ w', writeAll layout env w items = some w' ∧
    w'.offset = w.offset + Chunk.totalLength env (items.flatMap (chunks layout)) ∧
    w'.mem.take w.offset = w.mem.take w.offset ∧
    ∀ r : BufferReader, r.At (slice w'.mem w.offset (w'.offset - w.offset)) →
      readAll layout env r items = some (items.map restored, r.skip (w'.offset - w.offset))

theorem good_of_mem_flatMap (hsend : ∀ item ∈ items, item.Sendable layout env finite) :
    ∀ chunk ∈ items.flatMap (chunks layout), chunk.Good env finite := by
  intro chunk hchunk
  obtain ⟨item, hitem, hchunk⟩ := mem_flatMap.mp hchunk
  exact good_of_mem_chunks (hsend item hitem) chunk hchunk

theorem fits_of_writeAll (hsend : ∀ item ∈ items, item.Sendable layout env finite)
    {w w' : BufferWriter} (hw : w.Valid) (hwrite : writeAll layout env w items = some w')
    (hoff : w'.offset = w.offset + Chunk.totalLength env (items.flatMap (chunks layout))) :
    Fits env w.size w.offset (items.flatMap (chunks layout)) := by
  rw [writeAll_eq hsend] at hwrite
  exact Chunk.fits_of_writeAll (good_of_mem_flatMap hsend) hw (linked_self w) hwrite hoff

theorem decodedBack_of_fits (henv : env.RoundTrips finite)
    (hsend : ∀ item ∈ items, item.Sendable layout env finite) {w : BufferWriter} (hw : w.Valid)
    (hfits : Fits env w.size w.offset (items.flatMap (chunks layout))) :
    DecodedBack layout env items w := by
  obtain ⟨w', image, hwrite, ⟨⟨-, hoff, htake⟩, hslice⟩, hlength, himages⟩ :=
    Chunk.exists_writeAll (good_of_mem_flatMap hsend) hw (linked_self w) hfits
  refine ⟨w', (writeAll_eq hsend w).trans hwrite, hlength ▸ hoff, htake, fun r hat => ?_⟩
  rw [hoff, Nat.add_sub_cancel_left] at hat ⊢
  rw [hslice] at hat
  rw [hlength]
  exact readAll_of_shows henv hsend ⟨image, hat, himages⟩

/-! ## Messages of up to two gigabytes -/

theorem fits_of_le {size offset : ℕ} {chunks : List (Chunk F)} (hsize : size < 2 ^ 32)
    (h : offset + Chunk.totalLength env chunks ≤ 2 ^ 31) : Fits env size offset chunks := by
  induction chunks generalizing size offset with
  | nil => trivial
  | cons chunk chunks ih =>
    rw [Chunk.totalLength_cons] at h
    refine ⟨by omega, reachesFrom_of_le hsize (by omega), ?_, ih ?_ (by omega)⟩
    · cases chunk with
      | bytes content => trivial
      | vec content => trivial
      | script blocks =>
        intro text htext
        have hle := (sublist_flatten_of_mem htext).length_le
        have hlength : (Chunk.script blocks).length env =
          4 + (TASScript.text env 0 blocks).flatten.length := rfl
        omega
    · cases chunk with
      | bytes content => exact hsize
      | vec content => exact hsize
      | script blocks =>
        show offset + (Chunk.script blocks).length env < 2 ^ 32
        omega

theorem receive_send (henv : env.RoundTrips finite) (type : UInt8)
    (hsend : ∀ item ∈ items, item.Sendable layout env finite)
    (hlength : 1 + Chunk.totalLength env (items.flatMap (chunks layout)) ≤ 2 ^ 31) :
    ∃ msg r, send layout env type items = some msg ∧
      msg.length = 1 + Chunk.totalLength env (items.flatMap (chunks layout)) ∧
      msg.head? = some type ∧ receive layout env msg items = some (items.map restored, r) ∧
      r.canRead = false := by
  have hroom : init.offset + [type].length ≤ 1 := le_rfl
  obtain ⟨w₁, hw₁, happended, -⟩ := exists_writeBytes valid_init hroom
    (by norm_num) (reaches_of_le (by decide) (by norm_num))
  have hoff₁ : w₁.offset = 1 := happended.offset_eq
  have hfits : Fits env w₁.size w₁.offset (items.flatMap (chunks layout)) :=
    fits_of_le happended.valid.size_lt (by rw [hoff₁]; exact hlength)
  obtain ⟨w', image, hwrite, happended', himage, himages⟩ :=
    Chunk.exists_writeAll (good_of_mem_flatMap hsend) happended.valid (linked_self w₁) hfits
  have hwhole := happended.append happended'
  have hmsg : w'.mem.take w'.offset = type :: image := by
    have hslice := hwhole.slice_eq
    rw [show w'.offset = ([type] ++ image).length from hwhole.offset_eq.trans (Nat.zero_add _)]
    exact hslice
  have hlt : image.length < 2 ^ 32 := by omega
  refine ⟨type :: image, _, ?_, ?_, rfl,
    readAll_of_shows henv hsend ⟨image, ⟨?_, ?_, ?_, ?_⟩, himages⟩, ?_⟩
  · unfold send
    rw [show init.writePod .uint8 type = some w₁ from hw₁]
    simp only [some_bind, writeAll_eq hsend, hwrite, hmsg]
  · rw [length_cons, himage, Nat.add_comm]
  · show 0 + image.length ≤ image.length
    omega
  · exact le_rfl
  · exact hlt
  · show (image.drop 0).take image.length = image
    rw [drop_zero, take_length]
  · show decide (0 + Chunk.totalLength env (items.flatMap (chunks layout)) < image.length) = false
    rw [decide_eq_false_iff_not]
    omega

/-! ## The round trip -/

/-- **A message is decoded into the values encoded exactly if it fits.** -/
theorem message_round_trip_iff_fits (layout : Layout R) (henv : env.RoundTrips finite)
    (items : List (Item F R A)) (hsend : ∀ item ∈ items, item.Sendable layout env finite)
    (w : BufferWriter) (hw : w.Valid) :
    DecodedBack layout env items w ↔
      Fits env w.size w.offset (items.flatMap (chunks layout)) := by
  constructor
  · rintro ⟨w', hwrite, hoff, -⟩
    exact fits_of_writeAll hsend hw hwrite hoff
  · exact decodedBack_of_fits henv hsend hw

/-- Integers as floats, in four bytes, and as doubles, in eight. -/
def integerLayout : Layout Int where
  float := .int32
  double := (Pod.int32.pair (.padding 4 Pod.four_pos)).record Prod.fst (fun i => (i, ()))
    fun _ => rfl

/-- The values of a script are integers. -/
def yawText : TextEnv Int := integerText fun name => name == str "tas_yaw"

/-- A script of two blocks. -/
def yawBlocks : List (FrameBlock Int) :=
  (loadFromString yawText [] twoBlocks).blocks

theorem loadedScript_yawBlocks : LoadedScript yawText (fun _ => True) yawBlocks :=
  ⟨⟨twoBlocks, by decide +kernel, rfl⟩, by decide +kernel, fun _ _ _ _ => trivial⟩

/-- Settings with two nodes and two algorithms. -/
def yawSettings : SettingsRecord Int Unit where
  goal := .plusX
  targetPos := ⟨1, -2, 3⟩
  algorithmData := [.rngStrafer, .frameBlockMover]
  inputNodes := [⟨10, 20, 30⟩, ⟨-10, 0, 5⟩]

/-- A run of two frames. -/
def yawRun : OptimizerRun Int Int where
  efficacy := -7
  playbackInfo := { currentScript := { blocks := yawBlocks } }
  levelTime := 12
  teleportTime := 0
  vecData := [⟨⟨1, 2, 3⟩, 999⟩, ⟨⟨4, 5, 6⟩, -1⟩]
  kills := 3
  hp := 100
  ap := 0

/-- A line of one point. -/
def yawPrediction : PredictionData (Vec Int) where
  points := [⟨1, 2, 3⟩]
  fbdata := [⟨0, 5⟩, ⟨1, 8⟩]
  startFrame := 5
  endFrame := 9

theorem sendable_yawSettings : yawSettings.Sendable integerLayout := by
  constructor <;>
    simp [yawSettings, integerLayout, vector, Pod.record, Pod.pair, Pod.int32, uint32]

theorem sendable_yawRun : yawRun.Sendable integerLayout yawText fun _ => True := by
  constructor
  case script => exact loadedScript_yawBlocks
  all_goals
    simp [yawRun, integerLayout, vector, frameData, Pod.record, Pod.pair, Pod.int32,
      uint32, Pod.padding]

theorem sendable_yawPrediction : yawPrediction.Sendable integerLayout := by
  constructor <;>
    simp [yawPrediction, integerLayout, vector, blockIndexPod, Pod.record, Pod.pair,
      Pod.int32, uint32, Pod.word]

/-- A message with all kinds of values, behind a byte that the buffer holds. -/
theorem message_round_trip_mixed :
    DecodedBack integerLayout yawText
      (optimizerTask yawSettings { targetPos := ⟨0, 0, 0⟩ } 5 9 1 yawBlocks ++
        optimizerRun 1 yawRun { yawRun with kills := 0, vecData := [], hp := 1 } yawBlocks ++
        (predictRequest 5 9 2 1 yawBlocks ++ predictResponse 2 yawPrediction {}))
      ⟨[1], 1, 1⟩ := by
  have henv : yawText.RoundTrips fun _ => True := integerText_roundTrips _
  refine (message_round_trip_iff_fits integerLayout henv _ ?_ _ (by decide)).mpr
    (fits_of_le (by decide) (by decide +kernel))
  simp only [optimizerTask, optimizerRun, predictRequest, predictResponse, int,
    forall_mem_append, forall_mem_cons, Sendable]
  simp [Pod.int32, sendable_yawSettings, sendable_yawRun, sendable_yawPrediction,
    loadedScript_yawBlocks]

/-- A prediction, and a buffer of `2 ^ 31` bytes that is full. -/
theorem full_buffer_takes_no_message :
    (yawText.RoundTrips fun _ => True) ∧ yawPrediction.Sendable integerLayout ∧
    full.Valid ∧
    yawPrediction.writeToMemory integerLayout full = none := by
  refine ⟨integerText_roundTrips _, sendable_yawPrediction, valid_full, ?_⟩
  have hchunks : yawPrediction.writeToMemory integerLayout full =
      Chunk.writeAll yawText full (yawPrediction.chunks integerLayout) :=
    writeToMemory_eq _
  rw [hchunks, eq_none_iff_forall_ne_some]
  intro w' hw'
  -- the four bytes of the first member are not written
  unfold PredictionData.chunks at hw'
  rw [Chunk.writeAll_cons, bind_eq_some_iff] at hw'
  obtain ⟨w₁, hw₁, -⟩ := hw'
  obtain ⟨-, hoff, hreach, -⟩ := Chunk.write_eq_some valid_full hw₁
  have hstop : w₁.offset = 2 ^ 31 + 4 := hoff
  exact not_reaches_of_full rfl (by omega) hreach

/-! ## Messages over a connection -/

open Ipc Analysis.IpcFraming

/-- A message has arrived: behind the type that was sent, the values that were sent are read, and
nothing is left. -/
def Arrived (layout : Layout R) (env : TextEnv F) (sent : UInt8 × List (Item F R A))
    (msg : Message) : Prop :=
  ∃ data r, msg.address = some data ∧ data.head? = some sent.1 ∧
    receive layout env data sent.2 = some (sent.2.map restored, r) ∧ r.canRead = false

/-- **Messages sent over a connection arrive in order with their values**, whichever they are, if
they fit into `MAX_BYTES` and however the stream is cut between the lengths. -/
theorem messages_arrive (layout : Layout R) (henv : env.RoundTrips finite) (connectionId : ℕ)
    (sent : List (UInt8 × List (Item F R A)))
    (hsend : ∀ p ∈ sent, (∀ item ∈ p.2, item.Sendable layout env finite) ∧
      1 + Chunk.totalLength env (p.2.flatMap (chunks layout)) ≤ maxBytes) :
    ∃ msgs, Forall₂ (fun p msg => send layout env p.1 p.2 = some msg) sent msgs ∧
      ∀ cuts, cuts.flatten = msgs.flatMap sendMessage → HeadersWhole msgs cuts →
        ∃ r, Lib.run (Receiver.doRead connectionId) {} cuts = some r ∧
          Forall₂ (Arrived layout env) sent r.messages := by
  have hmsgs : ∃ msgs, Forall₂ (fun p msg => send layout env p.1 p.2 = some msg) sent msgs ∧
      (∀ msg ∈ msgs, msg ≠ [] ∧ msg.length ≤ maxBytes) ∧
      Forall₂ (fun p msg => Arrived layout env p (tagged connectionId msg)) sent msgs := by
    induction sent with
    | nil => exact ⟨[], .nil, nofun, .nil⟩
    | cons p sent ih =>
      obtain ⟨hitems, hlength⟩ := hsend p mem_cons_self
      obtain ⟨msg, r, hmsg, hlen, htype, hreceive⟩ :=
        receive_send henv p.1 hitems (hlength.trans (by decide))
      obtain ⟨msgs, hsent, hbounds, harrived⟩ := ih fun q hq => hsend q (mem_cons_of_mem _ hq)
      have hne : msg ≠ [] := by
        rintro rfl
        cases htype
      exact ⟨msg :: msgs, .cons hmsg hsent, forall_mem_cons.mpr ⟨⟨hne, hlen ▸ hlength⟩, hbounds⟩,
        .cons ⟨msg, r, rfl, htype, hreceive⟩ harrived⟩
  obtain ⟨msgs, hsent, hbounds, harrived⟩ := hmsgs
  refine ⟨msgs, hsent, fun cuts hcuts hwhole => ?_⟩
  have hmax : ∀ msg ∈ msgs, msg.length ≤ maxBytes := fun msg hmsg => (hbounds msg hmsg).2
  rw [flatMap_sendMessage hmax] at hcuts
  obtain ⟨r, hrun, hiff, -⟩ := run_delivers_iff connectionId hmax hcuts
  refine ⟨r, hrun, ?_⟩
  rw [hiff.mpr ⟨fun msg hmsg => (hbounds msg hmsg).1, hwhole⟩, forall₂_map_right_iff]
  exact harrived

theorem messages_arrive_prediction :
    let sent := ((4 : UInt8), predictResponse (A := Unit) 2 yawPrediction {})
    ∃ msg r, send integerLayout yawText sent.1 sent.2 = some msg ∧
      Lib.run (Receiver.doRead 1) {} [sendMessage msg] = some r ∧
        Forall₂ (Arrived integerLayout yawText) [sent] r.messages := by
  intro sent
  have henv : yawText.RoundTrips _ := integerText_roundTrips _
  obtain ⟨_, _ | ⟨hmsg, ⟨⟩⟩, harrive⟩ := messages_arrive integerLayout henv 1 [sent] fun p hp => by
    obtain rfl := mem_singleton.mp hp
    refine ⟨?_, by decide +kernel⟩
    simp [sent, predictResponse, int, Sendable, Pod.int32, sendable_yawPrediction]
  have hwhole : (send integerLayout yawText sent.1 sent.2).all fun msg =>
      HeadersWhole [msg] [sendMessage msg] := by decide +kernel
  rw [hmsg] at hwhole
  obtain ⟨r, hrun, harrived⟩ := harrive [_] (by simp) (of_decide_eq_true hwhole)
  exact ⟨_, r, hmsg, hrun, harrived⟩

end Item

end TASQuake
