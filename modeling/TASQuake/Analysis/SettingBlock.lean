import TASQuake.Analysis.EditLocality
import TASQuake.Model.Editing

/-!
# The block a setting is written to

`SetConvar` and `SetToggle` rewrite the first block at or after their frame if some block is on the
frame, and a new block on the frame if none is.  `WrittenAt` sets that block apart from those before
and after it, in any script; what is in effect afterwards is read off the three parts.
-/

namespace TASQuake

open Lib List

variable {F : Type}

/-- The block that `AddBlock` adds. -/
def addedBlock (frame : Int) : FrameBlock F := { frame := frame, parsed := true }

/-- The script `blocks`, with a block on `frame` added if there was none, is
`before ++ block :: after`, and `block` is the one that `GetBlockForFrame` returns. -/
structure WrittenAt (frame : Int) (blocks before : List (FrameBlock F)) (block : FrameBlock F)
    (after : List (FrameBlock F)) : Prop where
  before_lt : ∀ b ∈ before, b.frame < frame
  le_frame : frame ≤ block.frame
  split : (blocks = before ++ block :: after ∧ ∃ b ∈ blocks, b.frame = frame) ∨
    (blocks = before ++ after ∧ block = addedBlock frame ∧ ∀ b ∈ after.head?, frame < b.frame)

namespace PlaybackInfo

variable {info : PlaybackInfo F}

theorem getBlockForFrame_of_hasBlock {frame : Int} (hframe : info.frameOrCurrent frame = frame)
    {b : FrameBlock F} (hb : b ∈ info.currentScript.blocks) (hbf : b.frame = frame) :
    ∃ before block after, WrittenAt frame info.currentScript.blocks before block after ∧
      info.currentScript.blocks = before ++ block :: after ∧
      info.getBlockNumber frame = before.length := by
  have hnum : info.getBlockNumber frame = info.currentScript.getBlockIndex frame := by
    unfold getBlockNumber
    rw [hframe]
  have hlt : info.currentScript.getBlockIndex frame < info.currentScript.blocks.length := by
    apply findIdx_lt_length_of_exists
    exact ⟨b, hb, by simp [hbf]⟩
  obtain ⟨before, after, hsplit, hlen⟩ :=
    split_at_getElem? (getElem?_eq_getElem hlt)
  refine ⟨before, _, after, ⟨?_, ?_, .inl ⟨hsplit, b, hb, hbf⟩⟩, hsplit, by rw [hnum, hlen]⟩
  · intro a ha
    obtain ⟨j, hj, rfl⟩ := getElem_of_mem ha
    apply TASScript.lt_of_lt_getBlockIndex (s := info.currentScript) (j := j) (by omega)
    rw [hsplit, getElem?_append_left hj, getElem?_eq_getElem hj]
  · have hp := findIdx_getElem (w := hlt)
    exact of_decide_eq_true hp

theorem addBlock_eq {frame : Int} (hnone : ∀ b ∈ info.currentScript.blocks, b.frame ≠ frame) :
    ∃ before after, WrittenAt frame info.currentScript.blocks before (addedBlock frame) after ∧
      info.addBlock frame = (info.withBlocks (before ++ addedBlock frame :: after),
        before.length) := by
  set p : FrameBlock F → Bool := fun b => decide (frame < b.frame) with hp
  refine ⟨info.currentScript.blocks.takeWhile fun b => !p b,
    info.currentScript.blocks.dropWhile fun b => !p b, ⟨?_, le_refl _, .inr ⟨?_, rfl, ?_⟩⟩, ?_⟩
  · intro b hb
    have hle := mem_takeWhile_imp hb
    have hne := hnone b (takeWhile_subset _ hb)
    simp only [hp, Bool.not_eq_true', decide_eq_false_iff_not, not_lt] at hle
    omega
  · rw [takeWhile_append_dropWhile]
  · intro b hb
    have hhead := head?_dropWhile_not (fun b => !p b) info.currentScript.blocks
    rw [Option.mem_def.mp hb] at hhead
    simpa [hp] using hhead
  · unfold addBlock
    dsimp only
    rw [insertIdx_findIdx]
    have hlen : info.currentScript.blocks.findIdx p =
        (info.currentScript.blocks.takeWhile fun b => !p b).length := by
      rw [takeWhile_eq_take_findIdx_not, length_take]
      simp [findIdx_le_length]
    rw [hlen]
    rfl

/-- **What `GetBlockForFrame` returns** for a script that is not empty. -/
theorem getBlockForFrame_eq (hne : info.currentScript.blocks ≠ []) (frame : Int) :
    ∃ before block after,
      WrittenAt (info.frameOrCurrent frame) info.currentScript.blocks before block after ∧
      info.getBlockForFrame frame =
        some (info.withBlocks (before ++ block :: after), before.length) := by
  have hidem := info.frameOrCurrent_frameOrCurrent frame
  have hempty : info.currentScript.blocks.isEmpty = false := by simpa using hne
  unfold getBlockForFrame currentFrameHasBlock
  rw [hempty]
  dsimp only
  rw [hidem]
  by_cases hhas : ∃ b ∈ info.currentScript.blocks, b.frame = info.frameOrCurrent frame
  · obtain ⟨b, hb, hbf⟩ := hhas
    obtain ⟨before, block, after, hat, hsplit, hnum⟩ := getBlockForFrame_of_hasBlock hidem hb hbf
    have hany : (info.currentScript.blocks.any fun b =>
        decide (b.frame = info.frameOrCurrent frame)) = true := by
      simpa using ⟨b, hb, hbf⟩
    refine ⟨before, block, after, hat, ?_⟩
    rw [hany, ← hsplit, ← hnum]
    rfl
  · have hnone : ∀ b ∈ info.currentScript.blocks, b.frame ≠ info.frameOrCurrent frame :=
      fun b hb hbf => hhas ⟨b, hb, hbf⟩
    have hany : (info.currentScript.blocks.any fun b =>
        decide (b.frame = info.frameOrCurrent frame)) = false := by
      simpa using hnone
    obtain ⟨before, after, hat, hadd⟩ := addBlock_eq hnone
    refine ⟨before, _, after, hat, ?_⟩
    rw [hany, hadd]
    rfl

end PlaybackInfo

/-! ## What is in effect -/

section Effect

variable {frame : Int} {blocks before after : List (FrameBlock F)} {block : FrameBlock F}

theorem WrittenAt.strict (h : WrittenAt frame blocks before block after)
    (hs : blocks.Pairwise fun a b => a.frame < b.frame) :
    block.frame = frame ∧ ∀ b ∈ after, frame < b.frame := by
  obtain ⟨hbefore, hle, ⟨rfl, b, hb, hbf⟩ | ⟨rfl, rfl, hhead⟩⟩ := h
  · obtain ⟨-, hrest, hcross⟩ := pairwise_append.mp hs
    obtain ⟨hafter, -⟩ := pairwise_cons.mp hrest
    have hon : block.frame = frame := by
      rcases mem_append.mp hb with hb | hb
      · have hlt := hbefore b hb
        omega
      · rcases mem_cons.mp hb with rfl | hb
        · exact hbf
        · have hlt := hafter b hb
          omega
    exact ⟨hon, fun c hc => hon ▸ hafter c hc⟩
  · refine ⟨rfl, fun c hc => ?_⟩
    obtain ⟨-, hrest, -⟩ := pairwise_append.mp hs
    cases after with
    | nil => cases hc
    | cons d after =>
      have hd : frame < d.frame := hhead d rfl
      rcases mem_cons.mp hc with rfl | hc
      · exact hd
      · exact hd.trans ((pairwise_cons.mp hrest).1 c hc)

variable {block' : FrameBlock F}

theorem WrittenAt.pairwise (h : WrittenAt frame blocks before block after)
    (hs : blocks.Pairwise fun a b => a.frame < b.frame) (hframe : block'.frame = block.frame) :
    (before ++ block' :: after).Pairwise fun a b => a.frame < b.frame := by
  obtain ⟨hon, hafter⟩ := h.strict hs
  have hrest : (before ++ after).Pairwise fun a b => a.frame < b.frame := by
    rcases h.split with ⟨rfl, -⟩ | ⟨rfl, -⟩
    · exact hs.sublist (sublist_cons_self _ _ |>.append_left before)
    · exact hs
  obtain ⟨hb, ha, hcross⟩ := pairwise_append.mp hrest
  refine pairwise_append.mpr ⟨hb, pairwise_cons.mpr ⟨?_, ha⟩, ?_⟩
  · intro c hc
    rw [hframe, hon]
    exact hafter c hc
  · intro c hc d hd
    rcases mem_cons.mp hd with rfl | hd
    · rw [hframe, hon]
      exact h.before_lt c hc
    · exact hcross c hc d hd

theorem WrittenAt.mem_iff (h : WrittenAt frame blocks before block after) {a : FrameBlock F}
    (ha : a.frame ≠ block.frame) (hframe : block'.frame = block.frame) :
    a ∈ before ++ block' :: after ↔ a ∈ blocks := by
  have hne : a ≠ block' := by
    rintro rfl
    exact ha hframe
  have hne' : a ≠ block := by
    rintro rfl
    exact ha rfl
  rcases h.split with ⟨rfl, -⟩ | ⟨rfl, -⟩
  · simp [hne, hne']
  · simp [hne]

variable {ν : Type} {value : FrameBlock F → Option ν}

theorem lastValue_upTo_of_frame_le (hbefore : ∀ b ∈ before, b.frame < block.frame) {g : Int}
    (hg : block.frame ≤ g) :
    lastValue value (upTo g (before ++ block :: after)) =
      (lastValue value (upTo g after)).or ((value block).or (lastValue value before)) := by
  have hall : upTo g before = before := by
    apply filter_eq_self.mpr
    intro b hb
    have hlt := hbefore b hb
    rw [decide_eq_true_eq]
    omega
  unfold upTo at hall ⊢
  rw [filter_append, filter_cons_of_pos (by simpa using hg), hall, lastValue_append,
    lastValue_cons, Option.or_assoc]

theorem upTo_of_lt_frame {g : Int} (hg : g < block.frame) :
    upTo g (before ++ block :: after) = upTo g (before ++ after) := by
  unfold upTo
  rw [filter_append, filter_cons_of_neg (by simpa using hg), ← filter_append]

theorem WrittenAt.before_lt_frame (h : WrittenAt frame blocks before block after) :
    ∀ b ∈ before, b.frame < block.frame :=
  fun b hb => (h.before_lt b hb).trans_le h.le_frame

theorem lastValue_upTo_rewrite (before after : List (FrameBlock F)) {block : FrameBlock F}
    (hframe : block'.frame = block.frame) (hvalue : value block' = value block) (g : Int) :
    lastValue value (upTo g (before ++ block' :: after)) =
      lastValue value (upTo g (before ++ block :: after)) := by
  unfold upTo
  rw [filter_append, filter_append, lastValue_append, lastValue_append,
    filter_cons, filter_cons, hframe]
  split
  · rw [lastValue_cons, lastValue_cons, hvalue]
  · rfl

theorem WrittenAt.lastValue_eq (h : WrittenAt frame blocks before block after)
    (hadded : value (addedBlock frame) = none) (g : Int) :
    lastValue value (upTo g blocks) = lastValue value (upTo g (before ++ block :: after)) := by
  rcases h.split with ⟨rfl, -⟩ | ⟨rfl, rfl, -⟩
  · rfl
  · unfold upTo
    rw [filter_append, filter_append, lastValue_append, lastValue_append, filter_cons]
    split
    · rw [lastValue_cons, hadded, Option.or_none]
    · rfl

theorem commandsAt_rewrite (before after : List (FrameBlock F)) {block : FrameBlock F}
    (hframe : block'.frame = block.frame) (hcommands : block'.commands = block.commands) (g : Int) :
    commandsAt (before ++ block' :: after) g = commandsAt (before ++ block :: after) g := by
  rw [commandsAt_append, commandsAt_append, commandsAt_cons, commandsAt_cons, hframe, hcommands]

theorem WrittenAt.commandsAt_eq (h : WrittenAt frame blocks before block after) (g : Int) :
    commandsAt blocks g = commandsAt (before ++ block :: after) g := by
  rcases h.split with ⟨rfl, -⟩ | ⟨rfl, rfl, -⟩
  · rfl
  · -- the block added has no commands
    have hnone : (addedBlock frame : FrameBlock F).commands = [] := rfl
    rw [commandsAt_append, commandsAt_append, commandsAt_cons, hnone, ite_self, nil_append]

theorem WrittenAt.takeWhile_eq (h : WrittenAt frame blocks before block after) :
    blocks.takeWhile (fun b => decide (b.frame < frame)) = before := by
  have hbefore : ∀ b ∈ before, decide (b.frame < frame) = true :=
    fun b hb => decide_eq_true (h.before_lt b hb)
  rcases h.split with ⟨rfl, -⟩ | ⟨rfl, -, hhead⟩
  · rw [takeWhile_append_of_pos hbefore, takeWhile_cons_of_neg, append_nil]
    simpa using h.le_frame
  · rw [takeWhile_append_of_pos hbefore]
    cases after with
    | nil => simp
    | cons c after =>
      have hc : frame < c.frame := hhead c rfl
      rw [takeWhile_cons_of_neg (by simpa using hc.le), append_nil]

end Effect

/-! ## The session -/

namespace Session

/-- The session with other blocks in its script. -/
def withBlocks (self : Session F) (blocks : List (FrameBlock F)) : Session F :=
  { self with playback := self.playback.withBlocks blocks }

@[simp] theorem blocks_withBlocks (s : Session F) (blocks : List (FrameBlock F)) :
    (s.withBlocks blocks).blocks = blocks := rfl

theorem blockForFrame_eq {s : Session F} (hne : s.blocks ≠ []) (frame : Int) :
    ∃ before block after,
      WrittenAt (s.playback.frameOrCurrent frame) s.blocks before block after ∧
      s.blockForFrame frame = some (s.withBlocks (before ++ block :: after), before.length,
        block) := by
  obtain ⟨before, block, after, hat, hget⟩ := PlaybackInfo.getBlockForFrame_eq hne frame
  refine ⟨before, block, after, hat, ?_⟩
  unfold blockForFrame
  rw [hget]
  show (((before ++ block :: after)[before.length]?).bind _) = _
  rw [getElem?_append_cons]
  rfl

theorem modifyBlock_withBlocks (s : Session F) (before after : List (FrameBlock F))
    (block : FrameBlock F) (f : FrameBlock F → FrameBlock F) :
    (s.withBlocks (before ++ block :: after)).modifyBlock before.length f =
      s.withBlocks (before ++ f block :: after) := by
  show s.withBlocks ((before ++ block :: after).modify before.length f) = _
  rw [modify_append_cons]

/-- The stacked block is the one that `CalculateStack` computes. -/
def StackUpToDate (s : Session F) : Prop :=
  s.playback.stacked = s.playback.calculateStack.stacked

instance [DecidableEq F] (s : Session F) : Decidable s.StackUpToDate :=
  inferInstanceAs (Decidable (_ = _))

theorem getStackedToggle_eq {s : Session F} (h : s.StackUpToDate) (cmd : Str) :
    s.getStackedToggle cmd = (lastValue (fun b => b.toggles.find? cmd)
      (s.blocks.takeWhile fun b => decide (b.frame < s.playback.currentFrame))).getD false := by
  unfold getStackedToggle
  rw [h]
  show ((stackAll s.playback.stacked.reset _).toggles.find? cmd).getD false = _
  rw [find?_toggles_stackAll]
  simp [FrameBlock.reset, blocks]

theorem takeWhile_eq_upTo {blocks : List (FrameBlock F)}
    (hs : blocks.Pairwise fun a b => a.frame < b.frame) (c : Int) :
    blocks.takeWhile (fun b => decide (b.frame < c)) = upTo (c - 1) blocks := by
  have hsorted : KeySorted FrameBlock.frame blocks := hs.imp fun hab => hab.le
  rw [hsorted.takeWhile_eq_below c]
  unfold below upTo
  apply filter_congr
  intro b _
  rw [decide_eq_decide]
  omega

end Session

end TASQuake
