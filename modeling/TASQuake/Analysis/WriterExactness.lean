import TASQuake.Analysis.PlainIo
import TASQuake.Model.ScriptText

/-!
# What a buffer writer stores

`Write` makes room for a text but not for the null character that `vsnprintf` ends it with: if the
text ends where the buffer ends, the null character takes the place of its last byte (`write_spec`),
and nothing that is written later repairs it.  The sizes of a new buffer are the powers of two from
128 on.
-/

namespace TASQuake.Analysis.WriterExactness

open Lib Io Io.BufferWriter TASScript Nat List

/-! ## Growing -/

theorem growSize_spec {target fuel size n : ℕ} (hpos : 0 < size) (htarget : target ≤ 2 ^ 31)
    (h : growSize target fuel size = some n) :
    ∃ i, n = size * 2 ^ i ∧ target ≤ n ∧ ∀ j < i, size * 2 ^ j < target := by
  induction fuel generalizing size with
  | zero => cases h
  | succ fuel ih =>
    by_cases hlt : size < target
    · have hdouble : doubled size 1 = size * 2 := mod_eq_of_lt (by omega)
      rw [growSize_step _ _ _ hlt, hdouble] at h
      obtain ⟨i, rfl, hle, hbelow⟩ := ih (by omega) h
      refine ⟨i + 1, by rw [pow_succ', mul_assoc], hle, fun j hj => ?_⟩
      cases j with
      | zero => simpa using hlt
      | succ j =>
        have hj' := hbelow j (by omega)
        rw [mul_assoc, ← pow_succ'] at hj'
        exact hj'
    · rw [growSize, if_neg hlt] at h
      cases h
      exact ⟨0, by rw [pow_zero, mul_one], by omega, fun j hj => absurd hj (by omega)⟩

theorem eq_target_iff {target size i : ℕ} (hle : target ≤ size * 2 ^ i)
    (hbelow : ∀ j < i, size * 2 ^ j < target) :
    size * 2 ^ i = target ↔ ∃ k, size * 2 ^ k = target := by
  constructor
  · exact fun h => ⟨i, h⟩
  · rintro ⟨k, hk⟩
    rcases lt_trichotomy k i with hlt | rfl | hgt
    · exact absurd hk (Nat.ne_of_lt (hbelow k hlt))
    · exact hk
    · have hmono : size * 2 ^ i ≤ size * 2 ^ k :=
        mul_le_mul_left _ (Nat.pow_le_pow_right (by omega) (le_of_lt hgt))
      omega

variable {w : BufferWriter}

theorem growSize_of_allocateSpaceForWrite {w' : BufferWriter} {bytes : ℕ}
    (h : w.allocateSpaceForWrite bytes = some w') :
    growSize ((w.offset + bytes) % 2 ^ 32) 33 (max 1 w.size) = some w'.size := by
  unfold allocateSpaceForWrite at h
  simp only [bind_eq_some, Option.some.injEq] at h
  obtain ⟨n, hgrow, rfl⟩ := h
  rw [hgrow]
  split
  · rfl
  · next heq => rw [not_not.mp heq]

/-! ## One text -/

section Write

variable {w : BufferWriter} {text : Str}

theorem slice_advance_print (h : w.Valid) (hne : text ≠ [])
    (hroom : w.offset + text.length ≤ w.size) :
    slice ((w.print text).advance text.length).mem w.offset text.length =
      if w.size = w.offset + text.length then text.dropLast ++ [0] else text := by
  have hbytes := h.bytesLeft_eq
  rw [advance_mem]
  show slice (vsnprintf w.mem w.offset w.bytesLeft text) w.offset text.length = _
  rw [slice_vsnprintf hne (by omega) h.offset_add_le]
  have hfit : text.length = w.bytesLeft ↔ w.size = w.offset + text.length := by omega
  by_cases hsize : w.size = w.offset + text.length
  · rw [if_pos hsize, if_pos (hfit.mpr hsize)]
  · rw [if_neg hsize, if_neg fun heq => hsize (hfit.mp heq)]

theorem write_spec (h : w.Valid) (hne : text ≠ []) (hroom : w.offset + text.length < 2 ^ 31) :
    ∃ w' i, w.write text = some w' ∧ Wrote w w' text.length ∧
      w'.size = max 1 w.size * 2 ^ i ∧ w.offset + text.length ≤ w'.size ∧
      (∀ j < i, max 1 w.size * 2 ^ j < w.offset + text.length) ∧
      slice w'.mem w.offset text.length =
        if w'.size = w.offset + text.length then text.dropLast ++ [0] else text := by
  have hoff := h.offset_le
  have hsize := h.size_lt
  have hbytes := h.bytesLeft_eq
  have hpos := length_pos_iff.mpr hne
  unfold write
  rw [if_neg (by omega)]
  split
  · obtain ⟨w₁, hw₁, hv₁, hoff₁, hroom₁, htake₁, -⟩ :=
      exists_allocateSpaceForWrite (h.print text)
        (show (w.print text).offset + text.length ≤ w.offset + text.length by rw [print_offset])
        (by omega) (reaches_of_le (by rw [print_size]; exact hsize) (by omega))
    have hgrow := growSize_of_allocateSpaceForWrite hw₁
    rw [print_offset] at hoff₁ hroom₁ htake₁ hgrow
    rw [print_size, mod_eq_of_lt (by omega)] at hgrow
    obtain ⟨i, hi, hle, hbelow⟩ := growSize_spec (by omega) (by omega) hgrow
    obtain ⟨⟨hvalid, hoffset, htake⟩, -⟩ := wrote_advance_print hv₁ hne (by omega)
    have hslice := slice_advance_print hv₁ hne (by omega)
    rw [hoff₁] at hoffset htake hslice
    rw [hw₁]
    refine ⟨_, i, rfl, ⟨hvalid, hoffset, ?_⟩, ?_, ?_, hbelow, ?_⟩
    · rw [htake, htake₁, h.take_print]
    · rw [advance_size, print_size]
      exact hi
    · rw [advance_size, print_size]
      exact hle
    · rw [advance_size, print_size]
      exact hslice
  · next hfull =>
    have hfit := not_not.mp hfull
    refine ⟨_, 0, rfl, (wrote_advance_print h hne (by omega)).1, ?_, ?_, ?_, ?_⟩
    · rw [advance_size, print_size, pow_zero, mul_one]
      omega
    · rw [advance_size, print_size]
      omega
    · exact fun j hj => absurd hj (by omega)
    · rw [advance_size, print_size]
      exact slice_advance_print h hne (by omega)

theorem write_nil (h : w.Valid) (hroom : w.offset < 2 ^ 31) :
    ∃ w', w.write [] = some w' ∧ Wrote w w' 0 := by
  have hoff := h.offset_le
  have hsize := h.size_lt
  unfold write
  rw [if_neg (by decide)]
  have hlast : ∀ {w₁ : BufferWriter}, w₁.Valid → w₁.offset = w.offset →
      w₁.mem.take w.offset = w.mem.take w.offset →
      Wrote w ((w₁.print []).advance ([] : Str).length) 0 := by
    intro w₁ hv₁ hoff₁ htake₁
    have hoff₁' := hv₁.offset_le
    have hsize₁ := hv₁.size_lt
    have hmod : (w₁.offset + 0) % 2 ^ 32 = w₁.offset := mod_eq_of_lt (by omega)
    refine ⟨(hv₁.print []).advance ?_, ?_, ?_⟩
    · rw [print_offset, print_size, length_nil, hmod]
      exact hoff₁'
    · rw [advance_offset, print_offset, length_nil, hmod, hoff₁, add_zero]
    · have htake := hv₁.take_print []
      rw [hoff₁] at htake
      rw [advance_mem, htake, htake₁]
  split
  · obtain ⟨w₁, hw₁, hv₁, hoff₁, -, htake₁, -⟩ :=
      exists_allocateSpaceForWrite (h.print [])
        (show (w.print []).offset + ([] : Str).length ≤ w.offset by rw [print_offset]; exact le_rfl)
        (by omega) (reaches_of_le (by rw [print_size]; exact hsize) (by omega))
    rw [print_offset] at hoff₁ htake₁
    rw [hw₁]
    exact ⟨_, rfl, hlast hv₁ hoff₁ (htake₁.trans (h.take_print []))⟩
  · exact ⟨_, rfl, hlast h rfl rfl⟩

end Write

/-! ## Runs -/

/-- A text does not end where the buffer that has been made large enough ends; an empty text and a
text that ends with a null character lose nothing there. -/
def KeepsText (w : BufferWriter) (text : Str) : Prop :=
  text = [] ∨ text.getLast? = some 0 ∨ ∀ k, max 1 w.size * 2 ^ k ≠ w.offset + text.length

/-- A call before which the writer is in a state that keeps all bytes. -/
def Keeps (w : BufferWriter) : WriterOp → Prop
  | .write text => KeepsText w text
  | .writeLine s => KeepsText w (cStr s ++ [10])
  | .writeBytes _ => True
  | .writePodVec _ => True
  | .finalize => True

/-- Every call of a run is made in such a state. -/
def AllKeep : BufferWriter → List WriterOp → Prop
  | _, [] => True
  | w, op :: ops => Keeps w op ∧ ∀ w', op.call w = some w' → AllKeep w' ops

/-- The bytes that a run is to store. -/
def contents (ops : List WriterOp) : Str := (ops.map WriterOp.added).flatten

theorem dropLast_append_eq_iff {text : Str} (hne : text ≠ []) :
    text.dropLast ++ [0] = text ↔ text.getLast? = some 0 := by
  have hlast := dropLast_append_getLast hne
  constructor
  · intro h
    rw [← h, getLast?_concat]
  · intro h
    rw [getLast?_eq_some_getLast hne, Option.some.injEq] at h
    rw [h] at hlast
    exact hlast

theorem exists_write_keeps {text : Str} (h : w.Valid) (hroom : w.offset + text.length < 2 ^ 31) :
    ∃ w', w.write text = some w' ∧ Wrote w w' text.length ∧
      (slice w'.mem w.offset text.length = text ↔ KeepsText w text) := by
  by_cases hne : text = []
  · subst hne
    obtain ⟨w', hw', hwrote⟩ := write_nil h (by omega)
    exact ⟨w', hw', hwrote, iff_of_true take_zero (Or.inl rfl)⟩
  · obtain ⟨w', i, hw', hwrote, hsize, hle, hbelow, hslice⟩ := write_spec h hne hroom
    refine ⟨w', hw', hwrote, ?_⟩
    rw [hsize] at hle hslice
    have hfit := eq_target_iff hle hbelow
    unfold KeepsText
    rw [hslice, or_iff_right hne, ← dropLast_append_eq_iff hne]
    by_cases hexact : max 1 w.size * 2 ^ i = w.offset + text.length
    · obtain ⟨k, hk⟩ := hfit.mp hexact
      rw [if_pos hexact]
      exact (or_iff_left fun hnone => hnone k hk).symm
    · rw [if_neg hexact]
      exact iff_of_true rfl (Or.inr fun k hk => hexact (hfit.mpr ⟨k, hk⟩))

theorem call_spec (h : w.Valid) (op : WriterOp) (hroom : w.offset + op.added.length < 2 ^ 31) :
    ∃ w', op.call w = some w' ∧ Wrote w w' op.added.length ∧
      (slice w'.mem w.offset op.added.length = op.added ↔ Keeps w op) := by
  have hreach : ∀ target ≤ 2 ^ 31, w.Reaches target := fun _ ht => reaches_of_le h.size_lt ht
  cases op with
  | write text => exact exists_write_keeps h hroom
  | writeLine s => exact exists_write_keeps h hroom
  | writeBytes bytes =>
    obtain ⟨w', hw', happended, -⟩ :=
      exists_writeBytes h (le_refl _) (lt_trans hroom (by norm_num)) (hreach _ (by
        exact le_of_lt hroom))
    exact ⟨w', hw', happended.toWrote, iff_of_true happended.slice_eq trivial⟩
  | writePodVec bytes =>
    have hlen : (le32 bytes.length ++ bytes).length = 4 + bytes.length := by
      rw [length_append, length_le32]
    have hroom' := hlen ▸ hroom
    obtain ⟨w', hw', happended, -⟩ :=
      exists_writeVec h (le_refl _) (lt_trans hroom' (by norm_num)) (hreach _ (by
        exact le_of_lt hroom'))
    exact ⟨w', hw', happended.toWrote, iff_of_true happended.slice_eq trivial⟩
  | finalize =>
    have hvalid : w.finalize.Valid :=
      ⟨le_rfl, h.offset_le.trans h.size_le, lt_of_le_of_lt h.offset_le h.size_lt⟩
    exact ⟨w.finalize, rfl, ⟨hvalid, rfl, rfl⟩, iff_of_true take_zero trivial⟩

theorem contents_cons (op : WriterOp) (ops : List WriterOp) :
    contents (op :: ops) = op.added ++ contents ops := flatten_cons

theorem run_spec (h : w.Valid) (ops : List WriterOp)
    (hroom : w.offset + (contents ops).length < 2 ^ 31) :
    ∃ w', ops.foldlM WriterOp.call w = some w' ∧ Wrote w w' (contents ops).length ∧
      (slice w'.mem w.offset (contents ops).length = contents ops ↔ AllKeep w ops) := by
  induction ops generalizing w with
  | nil => exact ⟨w, rfl, ⟨h, rfl, rfl⟩, iff_of_true take_zero trivial⟩
  | cons op ops ih =>
    rw [contents_cons, length_append] at hroom
    obtain ⟨w₁, hw₁, hwrote₁, hkeeps₁⟩ := call_spec h op (by omega)
    have hoff₁ := hwrote₁.offset_eq
    obtain ⟨w₂, hw₂, hwrote₂, hkeeps₂⟩ := ih hwrote₁.valid (by omega)
    obtain ⟨hwrote, hsplit⟩ := hwrote₁.append hwrote₂
    have hlen : (slice w₁.mem w.offset op.added.length).length = op.added.length := by
      have hvalid := hwrote₁.valid
      have hoffset := hvalid.offset_le
      have hmem := hvalid.size_le
      exact length_slice (by omega)
    have hparts : slice w₁.mem w.offset op.added.length ++
        slice w₂.mem w₁.offset (contents ops).length = op.added ++ contents ops ↔
          slice w₁.mem w.offset op.added.length = op.added ∧
            slice w₂.mem w₁.offset (contents ops).length = contents ops :=
      ⟨fun heq => append_inj heq hlen, fun heq => by rw [heq.1, heq.2]⟩
    rw [contents_cons, length_append]
    refine ⟨w₂, ?_, hwrote, ?_⟩
    · rw [foldlM_cons, hw₁]
      exact hw₂
    · rw [hsplit, hparts, hkeeps₁, hkeeps₂]
      constructor
      · rintro ⟨hfirst, hrest⟩
        refine ⟨hfirst, fun w' hw' => ?_⟩
        rw [hw₁, Option.some.injEq] at hw'
        exact hw' ▸ hrest
      · rintro ⟨hfirst, hrest⟩
        exact ⟨hfirst, hrest w₁ hw₁⟩

/-! ## Scripts -/

section Script

variable {F : Type}

variable {line : Str}

theorem getLast?_of_mem_text (env : TextEnv F) {currentFrame : Int} {blocks : List (FrameBlock F)}
    (h : line ∈ text env currentFrame blocks) : line.getLast? = some 10 := by
  have hend : ∀ start : Str, (start ++ str "\n").getLast? = some 10 :=
    fun start => getLast?_concat
  have hheader : ∀ start : Str, (start ++ str ":\n").getLast? = some 10 := by
    intro start
    have hsplit : str ":\n" = str ":" ++ str "\n" := rfl
    rw [hsplit, ← append_assoc]
    exact hend _
  induction blocks generalizing currentFrame with
  | nil => exact absurd h not_mem_nil
  | cons block blocks ih =>
    rw [text, mem_append] at h
    rcases h with h | h
    · unfold blockText at h
      rw [mem_cons, mem_append, mem_append] at h
      rcases h with rfl | (h | h) | h
      · exact hheader _
      · obtain ⟨cvar, -, rfl⟩ := mem_map.mp h
        exact hend _
      · obtain ⟨toggle, -, rfl⟩ := mem_map.mp h
        split
        · exact hend _
        · exact hend _
      · obtain ⟨cmd, -, rfl⟩ := mem_map.mp h
        exact hend _
    · exact ih h

/-- The size of the buffer is a power of two from 128 on, and no smaller one of them is behind the
offset. -/
def PowerSize (w : BufferWriter) : Prop :=
  ∃ j, w.size = 128 * 2 ^ j ∧ ∀ i < j, 128 * 2 ^ i < w.offset

/-- Following the lines from an offset on, none of them ends at one of these sizes. -/
def NoExactFit : ℕ → List Str → Prop
  | _, [] => True
  | offset, line :: lines =>
    (∀ k, 128 * 2 ^ k ≠ offset + line.length) ∧ NoExactFit (offset + line.length) lines

variable {w : BufferWriter}

theorem PowerSize.max_mul_pow {j : ℕ} (hsize : w.size = 128 * 2 ^ j) (i : ℕ) :
    max 1 w.size * 2 ^ i = 128 * 2 ^ (j + i) := by
  have hpos : 0 < 2 ^ j := Nat.two_pow_pos j
  have hmax : max 1 w.size = w.size := by omega
  rw [hmax, hsize, pow_add, mul_assoc]

theorem PowerSize.keepsText_iff (h : PowerSize w) (hline : line.getLast? = some 10) :
    KeepsText w line ↔ ∀ k, 128 * 2 ^ k ≠ w.offset + line.length := by
  obtain ⟨j, hsize, hbelow⟩ := h
  have hne : line ≠ [] := by
    rintro rfl
    cases hline
  have hzero : line.getLast? ≠ some 0 := by
    rw [hline]
    decide
  unfold KeepsText
  rw [or_iff_right hne, or_iff_right hzero]
  constructor
  · intro hkeeps k hk
    by_cases hlt : k < j
    · have hless := hbelow k hlt
      omega
    · obtain ⟨i, rfl⟩ := Nat.exists_eq_add_of_le (Nat.le_of_not_lt hlt)
      exact hkeeps i ((PowerSize.max_mul_pow hsize i).trans hk)
  · intro hkeeps k hk
    exact hkeeps (j + k) ((PowerSize.max_mul_pow hsize k).symm.trans hk)

theorem PowerSize.write {w' : BufferWriter} (hpower : PowerSize w) (h : w.Valid) (hne : line ≠ [])
    (hroom : w.offset + line.length < 2 ^ 31) (hw : w.write line = some w') : PowerSize w' := by
  obtain ⟨w₁, i, hw₁, hwrote, hsize₁, -, hbelow₁, -⟩ := write_spec h hne hroom
  rw [hw₁, Option.some.injEq] at hw
  subst hw
  obtain ⟨j, hsize, hbelow⟩ := hpower
  have hoff := hwrote.offset_eq
  refine ⟨j + i, by rw [hsize₁, PowerSize.max_mul_pow hsize], fun m hm => ?_⟩
  by_cases hlt : m < j
  · have hless := hbelow m hlt
    omega
  · obtain ⟨n, rfl⟩ := Nat.exists_eq_add_of_le (Nat.le_of_not_lt hlt)
    have hless := hbelow₁ n (by omega)
    rw [PowerSize.max_mul_pow hsize] at hless
    omega

theorem allKeep_lines_iff (hpower : PowerSize w) (h : w.Valid) {lines : List Str}
    (hlines : ∀ line ∈ lines, line.getLast? = some 10)
    (hroom : w.offset + lines.flatten.length < 2 ^ 31) :
    AllKeep w (lines.map WriterOp.write) ↔ NoExactFit w.offset lines := by
  induction lines generalizing w with
  | nil => exact Iff.rfl
  | cons line lines ih =>
    obtain ⟨hline, hrest⟩ := forall_mem_cons.mp hlines
    have hne : line ≠ [] := by
      rintro rfl
      cases hline
    rw [flatten_cons, length_append] at hroom
    obtain ⟨w', hw', hwrote, -⟩ := exists_write_keeps h (show w.offset + line.length < 2 ^ 31 by
      omega)
    have hoff := hwrote.offset_eq
    have hnext := ih (hpower.write h hne (by omega) hw') hwrote.valid hrest (by omega)
    rw [hoff] at hnext
    rw [map_cons, AllKeep, NoExactFit, ← hnext]
    show KeepsText w line ∧ _ ↔ _
    rw [hpower.keepsText_iff hline]
    refine and_congr_right fun _ => ⟨fun hall => hall w' hw', fun hkeep w₁ hw₁ => ?_⟩
    have hcall : w.write line = some w₁ := hw₁
    rw [hw', Option.some.injEq] at hcall
    exact hcall ▸ hkeep

theorem writeAll_eq_foldlM (w : BufferWriter) (lines : List Str) :
    w.writeAll lines = (lines.map WriterOp.write).foldlM WriterOp.call w := by
  rw [foldlM_map]
  rfl

/-- `ToString` gives the text of a script exactly if none of its lines ends where the buffer
ends. -/
theorem toString_eq_text_iff (env : TextEnv F) (blocks : List (FrameBlock F))
    (hroom : 4 + (text env 0 blocks).flatten.length < 2 ^ 31) :
    toString env blocks = some (text env 0 blocks).flatten ↔
      NoExactFit 4 (text env 0 blocks) := by
  have hlen : (str "0000").length = 4 := rfl
  have hzeros : init.offset + (str "0000").length < 2 ^ 31 := by decide
  obtain ⟨w₁, hw₁, hwrote₁, -⟩ := exists_write_keeps valid_init hzeros
  have hoff₁ : w₁.offset = 4 := hwrote₁.offset_eq
  have hinit : PowerSize init := ⟨0, rfl, fun i hi => absurd hi (not_lt_zero i)⟩
  have hpower : PowerSize w₁ := hinit.write valid_init (by decide) hzeros hw₁
  have hcontents : contents ((text env 0 blocks).map WriterOp.write) =
      (text env 0 blocks).flatten := by
    unfold contents
    rw [map_map]
    exact congrArg flatten (map_id _)
  obtain ⟨w₂, hw₂, hwrote₂, hkeeps⟩ := run_spec hwrote₁.valid
    ((text env 0 blocks).map WriterOp.write) (by rw [hcontents, hoff₁]; exact hroom)
  rw [hcontents, hoff₁] at hkeeps
  have hoff₂ : w₂.offset = 4 + (text env 0 blocks).flatten.length := by
    rw [hwrote₂.offset_eq, hoff₁, hcontents]
  have hlength : sub32 (4 + (text env 0 blocks).flatten.length) 4 =
      (text env 0 blocks).flatten.length := by
    rw [sub32_of_le (by omega) (by omega)]
    omega
  have hstring : toString env blocks =
      some (slice w₂.mem 4 (text env 0 blocks).flatten.length) := by
    unfold TASScript.toString writeToMemory
    simp only [hw₁, writeAll_eq_foldlM, hw₂, some_bind]
    show some (slice (memcpy w₂.mem 0 (le32 _)) 4 (sub32 w₂.offset 4)) = _
    rw [hoff₂, hlength, slice_memcpy_after (zero_le _) (by rw [length_le32])]
  rw [hstring, Option.some.injEq, hkeeps, ← hoff₁]
  exact allKeep_lines_iff hpower hwrote₁.valid (fun line hline => getLast?_of_mem_text env hline)
    (by rw [hoff₁]; exact hroom)

end Script

/-! ## The result -/

/-- **A run of calls stores exactly what was written, and `ToString` is exactly the text of the
script, if and only if no formatted text ends where the buffer that has been made large enough for
it ends.** -/
theorem writer_stores_exactly_iff (ops : List WriterOp) (hops : (contents ops).length < 2 ^ 31)
    {F : Type} (env : TextEnv F) (blocks : List (FrameBlock F))
    (hblocks : 4 + (text env 0 blocks).flatten.length < 2 ^ 31) :
    (∃ w, ops.foldlM WriterOp.call init = some w ∧ w.offset = (contents ops).length ∧
        w.offset ≤ w.size ∧ (w.mem.take w.offset = contents ops ↔ AllKeep init ops)) ∧
      (toString env blocks = some (text env 0 blocks).flatten ↔
        NoExactFit 4 (text env 0 blocks)) := by
  refine ⟨?_, toString_eq_text_iff env blocks hblocks⟩
  have hroom : init.offset + (contents ops).length < 2 ^ 31 := (Nat.zero_add _).symm ▸ hops
  obtain ⟨w, hw, hwrote, hkeeps⟩ := run_spec valid_init ops hroom
  have hoff := hwrote.offset_eq.trans (zero_add _)
  refine ⟨w, hw, hoff, hwrote.valid.offset_le, ?_⟩
  rw [← hkeeps, hoff]
  exact Iff.rfl

/-- A short text, and the script without blocks. -/
theorem writer_stores_exactly_short :
    (∃ w, [WriterOp.write (str "ab")].foldlM WriterOp.call init = some w ∧
        w.mem.take w.offset = str "ab") ∧
      toString (⟨fun _ => false, fun _ => [], fun _ => ()⟩ : TextEnv Unit) [] =
        some [] := by
  obtain ⟨⟨w, hw, -, -, hstored⟩, hstring⟩ := writer_stores_exactly_iff
    [WriterOp.write (str "ab")] (by decide)
    (⟨fun _ => false, fun _ => [], fun _ => ()⟩ : TextEnv Unit) [] (by decide)
  have hkeep : AllKeep init [WriterOp.write (str "ab")] := by
    refine ⟨Or.inr (Or.inr fun k hk => ?_), fun _ _ => trivial⟩
    have hpos : 0 < 2 ^ k := Nat.two_pow_pos k
    have hfit : 128 * 2 ^ k = 2 := hk
    omega
  exact ⟨⟨w, hw, hstored.mpr hkeep⟩, hstring.mpr trivial⟩

/-- 128 bytes fill the first buffer, and the last of them is lost; so is the end of a line of a
script that ends there. -/
theorem exact_fit_loses_last_byte :
    (init.write (replicate 128 97)).map (fun w => w.mem.take w.offset) =
        some (replicate 127 97 ++ [0]) ∧
      toString (⟨fun _ => false, fun _ => [], fun _ => ()⟩ : TextEnv Unit)
        [{ frame := 1, commands := [replicate 118 97] }] =
          some (str "+1:\n\t" ++ replicate 118 97 ++ [0]) := by
  decide +kernel

end TASQuake.Analysis.WriterExactness
