import TASQuake.Model.Script

/-!
# Editing the blocks of the script being played

The part of the editing commands that rewrites `playback.current_script`
(tas/script_playback.cpp:174-244, 817-975).  What the commands do to the rest of the game is
in `Model.Session`.

A command that prints a message and leaves the script alone answers with an `EditError`; its
`message` is the text printed.  `now` is what `Sys_DoubleTime()` returns.
-/

namespace TASQuake

/-- `LOWEST_FRAME`. -/
def lowestFrame : Int := 0

/-- `LOWEST_BLOCK`. -/
def lowestBlock : ℕ := 0

/-- The reasons for which an editing command is refused. -/
inductive EditError where
  | beyondLastBlock
  | deletesAllBlocks
  | deletesFirstBlock
  | noBlockToDelete
  | noBlockToShift
  | shiftsPastLowestFrame
  | blockAlreadyOn (frame : Int)
  | shiftsLastBlock
  | cannotMoveTo (frame : Int)
deriving DecidableEq

/-- The text printed on the console for a refused command. -/
def EditError.message : EditError → String
  | .beyondLastBlock => "Already beyond last block.\n"
  | .deletesAllBlocks => "Cannot delete all blocks!\n"
  | .deletesFirstBlock => "Cannot delete first block.\n"
  | .noBlockToDelete => "Current frame has no block to delete.\n"
  | .noBlockToShift => "No block found on current frame, nothing to shift!\n"
  | .shiftsPastLowestFrame => "Cannot move frame past " ++ toString lowestFrame ++ "\n"
  | .blockAlreadyOn frame => "Frame block already on frame " ++ toString frame ++ "\n"
  | .shiftsLastBlock => "Cannot shift stack, this is the last frame block.\n"
  | .cannotMoveTo frame => "Cannot move frame to position " ++ toString frame ++ "\n"

namespace PlaybackInfo

variable {F : Type}

/-- The playback information with other blocks. -/
def withBlocks (self : PlaybackInfo F) (blocks : List (FrameBlock F)) : PlaybackInfo F :=
  { self with currentScript := { self.currentScript with blocks := blocks } }

/-- `CurrentFrameHasBlock`. (tas/script_playback.cpp:178-192) -/
def currentFrameHasBlock (self : PlaybackInfo F) (frame : Int) : Bool :=
  self.currentScript.blocks.any fun b => decide (b.frame = self.frameOrCurrent frame)

/-- `AddBlock`: a new block before the first block after `frame`, and its index.  In an empty
script that is index 0, as in the first branch of the source. (tas/script_playback.cpp:194-222) -/
def addBlock (self : PlaybackInfo F) (frame : Int) : PlaybackInfo F × ℕ :=
  let i := self.currentScript.blocks.findIdx fun b => decide (frame < b.frame)
  (self.withBlocks (self.currentScript.blocks.insertIdx i { frame := frame, parsed := true }), i)

/-- `GetBlockForFrame`: the script in which the frame has a block and the index of the block
returned; `none` is the null pointer for an empty script. (tas/script_playback.cpp:224-244) -/
def getBlockForFrame (self : PlaybackInfo F) (frame : Int) : Option (PlaybackInfo F × ℕ) :=
  if self.currentScript.blocks.isEmpty then none
  else
    let frame := self.frameOrCurrent frame
    if self.currentFrameHasBlock frame then some (self, self.getBlockNumber frame)
    else some (self.addBlock frame)

/-- `new_size` of `Cmd_TAS_Edit_Shrink`: the blocks up to the current frame.
(tas/script_playback.cpp:827-832) -/
def shrinkSize (self : PlaybackInfo F) : ℕ :=
  if self.currentFrameHasBlock (-1) then self.getBlockNumber (-1) + 1
  else self.getBlockNumber (-1)

/-- `Cmd_TAS_Edit_Shrink`. (tas/script_playback.cpp:817-848) -/
def editShrink (self : PlaybackInfo F) (now : ℕ) : Except EditError (PlaybackInfo F) :=
  let blocks := self.currentScript.blocks
  if blocks.length ≤ self.getBlockNumber (-1) then .error .beyondLastBlock
  else if self.shrinkSize < blocks.length then
    if self.shrinkSize ≤ lowestBlock then .error .deletesAllBlocks
    else .ok { self.withBlocks (blocks.take self.shrinkSize) with lastEdited := now }
  else .ok self

/-- `Cmd_TAS_Edit_Delete`. (tas/script_playback.cpp:850-867) -/
def editDelete (self : PlaybackInfo F) (now : ℕ) : Except EditError (PlaybackInfo F) :=
  let currentBlock := self.getBlockNumber (-1)
  if currentBlock ≤ lowestBlock then .error .deletesFirstBlock
  else if !self.currentFrameHasBlock (-1) then .error .noBlockToDelete
  else
    .ok { self.withBlocks (self.currentScript.blocks.eraseIdx currentBlock) with
      lastEdited := now }

/-- The loop of `Shift_Block`: put a block before the first block after it.  A block that is
already on its frame stops the loop and the new block is lost. (tas/script_playback.cpp:873-889) -/
def insertShifted (newBlock : FrameBlock F) : List (FrameBlock F) → List (FrameBlock F)
  | [] => [newBlock]
  | block :: rest =>
    if block.frame = newBlock.frame then block :: rest
    else if newBlock.frame < block.frame then newBlock :: block :: rest
    else block :: insertShifted newBlock rest

/-- `Shift_Block`. (tas/script_playback.cpp:869-890) -/
def shiftBlock (now : ℕ) (self : PlaybackInfo F) (newBlock : FrameBlock F) : PlaybackInfo F :=
  { self.withBlocks (insertShifted newBlock self.currentScript.blocks) with lastEdited := now }

/-- `Cmd_TAS_Edit_Shift` up to the call of `Generic_Advance`: the edited playback and the
frame to advance to. (tas/script_playback.cpp:892-927) -/
def editShift (self : PlaybackInfo F) (now : ℕ) (frames : Int) :
    Except EditError (PlaybackInfo F × Int) :=
  let newFrame := self.currentFrame + frames
  if !self.currentFrameHasBlock (-1) then .error .noBlockToShift
  else if newFrame < lowestFrame then .error .shiftsPastLowestFrame
  else if self.currentScript.blocks.any fun b => decide (b.frame = newFrame) then
    .error (.blockAlreadyOn newFrame)
  else
    let currentBlock := self.getBlockNumber (-1)
    match self.currentScript.blocks[currentBlock]? with
    | none => .error .noBlockToShift
    | some block =>
      let erased := self.withBlocks (self.currentScript.blocks.eraseIdx currentBlock)
      .ok (shiftBlock now erased { block with frame := newFrame }, newFrame)

/-- The blocks that `Cmd_TAS_Edit_Shift_Stack` moves, from the last one down: its loops run
from the back while the block is after the current frame. -/
def stackToShift (self : PlaybackInfo F) : List (FrameBlock F) :=
  self.currentScript.blocks.reverse.takeWhile fun b => decide (self.currentFrame < b.frame)

/-- The blocks that stay in place. -/
def stackToKeep (self : PlaybackInfo F) : List (FrameBlock F) :=
  (self.currentScript.blocks.reverse.dropWhile fun b => decide (self.currentFrame < b.frame)
    ).reverse

/-- Whether a block after the current frame must not be moved by `frames`. -/
def cannotShift (self : PlaybackInfo F) (frames : Int) (block : FrameBlock F) : Bool :=
  decide (block.frame + frames < lowestFrame) || decide (block.frame + frames ≤ self.currentFrame)

/-- `Cmd_TAS_Edit_Shift_Stack`. (tas/script_playback.cpp:929-975) -/
def editShiftStack (self : PlaybackInfo F) (now : ℕ) (frames : Int) :
    Except EditError (PlaybackInfo F) :=
  if self.getLastFrame ≤ self.currentFrame then .error .shiftsLastBlock
  else
    match self.stackToShift.find? (self.cannotShift frames) with
    | some block => .error (.cannotMoveTo (block.frame + frames))
    | none =>
      .ok ((self.stackToShift.map (FrameBlock.shiftFrame frames)).foldl (shiftBlock now)
        (self.withBlocks self.stackToKeep))

/-! ## What an accepted command has done -/

theorem getBlockForFrame_inv {self info : PlaybackInfo F} {frame : Int} {i : ℕ}
    (h : self.getBlockForFrame frame = some (info, i)) :
    (self.currentFrameHasBlock (self.frameOrCurrent frame) = true ∧ info = self ∧
      i = self.getBlockNumber (self.frameOrCurrent frame)) ∨
    (self.currentFrameHasBlock (self.frameOrCurrent frame) = false ∧
      (info, i) = self.addBlock (self.frameOrCurrent frame)) := by
  unfold getBlockForFrame at h
  simp only at h
  split at h
  · cases h
  · split at h
    · next hb =>
      cases h
      exact Or.inl ⟨hb, rfl, rfl⟩
    · next hb => exact Or.inr ⟨by simpa using hb, (Option.some.inj h).symm⟩

theorem editShrink_inv {self info : PlaybackInfo F} {now : ℕ}
    (h : self.editShrink now = .ok info) :
    info = self ∨
      info = { self.withBlocks (self.currentScript.blocks.take self.shrinkSize) with
        lastEdited := now } := by
  unfold editShrink at h
  simp only at h
  split at h
  · cases h
  · split at h
    · split at h
      · cases h
      · exact Or.inr (Except.ok.inj h).symm
    · exact Or.inl (Except.ok.inj h).symm

theorem editDelete_inv {self info : PlaybackInfo F} {now : ℕ}
    (h : self.editDelete now = .ok info) :
    self.currentFrameHasBlock (-1) = true ∧
      info = { self.withBlocks (self.currentScript.blocks.eraseIdx (self.getBlockNumber (-1))) with
        lastEdited := now } := by
  unfold editDelete at h
  simp only at h
  split at h
  · cases h
  · split at h
    · cases h
    · next hb => exact ⟨by simpa using hb, (Except.ok.inj h).symm⟩

theorem editShift_inv {self info : PlaybackInfo F} {now : ℕ} {frames newFrame : Int}
    (h : self.editShift now frames = .ok (info, newFrame)) :
    newFrame = self.currentFrame + frames ∧ 0 ≤ newFrame ∧
      ∃ block, self.currentScript.blocks[self.getBlockNumber (-1)]? = some block ∧
        info = shiftBlock now
          (self.withBlocks (self.currentScript.blocks.eraseIdx (self.getBlockNumber (-1))))
          { block with frame := newFrame } := by
  unfold editShift at h
  simp only at h
  split at h
  · cases h
  · split at h
    · cases h
    · next hlow =>
      split at h
      · cases h
      · split at h
        · cases h
        · next block hblock =>
          cases h
          refine ⟨rfl, ?_, block, hblock, rfl⟩
          unfold lowestFrame at hlow
          omega

theorem editShiftStack_inv {self info : PlaybackInfo F} {now : ℕ} {frames : Int}
    (h : self.editShiftStack now frames = .ok info) :
    (∀ b ∈ self.stackToShift, 0 ≤ b.frame + frames ∧ self.currentFrame < b.frame + frames) ∧
      info = (self.stackToShift.map (FrameBlock.shiftFrame frames)).foldl (shiftBlock now)
        (self.withBlocks self.stackToKeep) := by
  unfold editShiftStack at h
  split at h
  · cases h
  · split at h
    · cases h
    · next hfind =>
      refine ⟨?_, (Except.ok.inj h).symm⟩
      intro b hb
      have hcheck := List.find?_eq_none.mp hfind b hb
      unfold cannotShift lowestFrame at hcheck
      simp only [Bool.or_eq_true, decide_eq_true_eq, not_or] at hcheck
      omega

end PlaybackInfo

end TASQuake
