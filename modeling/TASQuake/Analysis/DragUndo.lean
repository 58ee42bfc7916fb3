import TASQuake.Interface.ScriptMeaning
import TASQuake.Lib.Run
import TASQuake.Model.Editing

/-!
# Cancelling and confirming a drag

While a drag lasts, the script is the one it started with up to a shift of the blocks and the yaw of
one of them (`Dragged`).  `Drag_Cancel` puts back the yaw that `SelectDragIndex` has remembered,
which is too little for a block that only inherits its yaw.  `Drag_Confirm` erases the yaw of the
block if it is the one remembered, also if the block had it before.
-/

namespace TASQuake.Analysis.DragUndo

open Lib Session OrderedMap TASScript FrameBlock List

variable {F : Type}

/-! ## Scripts during a drag -/

/-- A block with another yaw, if one is given. -/
def setYaw (yaw : Option F) (b : FrameBlock F) : FrameBlock F :=
  match yaw with
  | none => b
  | some y => { b with convars := b.convars.put Session.strafeYaw y }

/-- The blocks behind the one that is dragged. -/
def followers (dragType : DragType) (delta : Int) (blocks : List (FrameBlock F)) :
    List (FrameBlock F) :=
  match dragType with
  | .stack => blocks.map (shiftFrame delta)
  | _ => blocks

/-- The blocks `before ++ block :: after` with `block` dragged by a number of frames and turned to a
yaw. -/
def dragged (dragType : DragType) (before : List (FrameBlock F)) (block : FrameBlock F)
    (after : List (FrameBlock F)) (delta : Int) (yaw : Option F) : List (FrameBlock F) :=
  before ++ setYaw yaw (block.shiftFrame delta) :: followers dragType delta after

@[simp] theorem shiftFrame_zero (b : FrameBlock F) : b.shiftFrame 0 = b := by
  simp [shiftFrame]

@[simp] theorem shiftFrame_shiftFrame (b : FrameBlock F) (d d' : Int) :
    (b.shiftFrame d).shiftFrame d' = b.shiftFrame (d + d') := by
  simp [shiftFrame, Int.add_assoc]

@[simp] theorem shiftFrame_setYaw (yaw : Option F) (b : FrameBlock F) (delta : Int) :
    (setYaw yaw b).shiftFrame delta = setYaw yaw (b.shiftFrame delta) := by
  cases yaw <;> rfl

@[simp] theorem frame_setYaw (yaw : Option F) (b : FrameBlock F) :
    (setYaw yaw b).frame = b.frame := by
  cases yaw <;> rfl

theorem map_shiftFrame_zero (blocks : List (FrameBlock F)) :
    blocks.map (shiftFrame 0) = blocks := by
  rw [map_congr_left fun b _ => shiftFrame_zero b]
  exact map_id _

theorem shiftSingleBlock_eq (script : TASScript F) (before after : List (FrameBlock F))
    (block : FrameBlock F) (h : script.blocks = before ++ block :: after) (delta : Int) :
    ∃ d, (script.shiftSingleBlock before.length delta).blocks =
      before ++ block.shiftFrame d :: after := by
  have hget : script.blocks[before.length]? = some block := by rw [h, getElem?_append_cons]
  refine ⟨script.singleShiftDelta before.length block delta, ?_⟩
  unfold shiftSingleBlock
  rw [hget]
  show script.blocks.modify before.length _ = _
  rw [h, modify_append_cons]

theorem shiftBlocks_eq (script : TASScript F) (before after : List (FrameBlock F))
    (block : FrameBlock F) (h : script.blocks = before ++ block :: after) (delta : Int) :
    (script.shiftBlocks before.length delta).1.blocks =
      before ++ block.shiftFrame (script.shiftDelta before.length block delta) ::
        after.map (shiftFrame (script.shiftDelta before.length block delta)) := by
  have hget : script.blocks[before.length]? = some block := by rw [h, getElem?_append_cons]
  unfold shiftBlocks
  rw [hget]
  dsimp only
  split
  · next hzero => rw [hzero, shiftFrame_zero, map_shiftFrame_zero, h]
  · dsimp only
    rw [h, take_left', drop_left']
    · rfl
    · rfl
    · rfl

/-- The drag of a block is going on: the script is the one it started with, dragged, and what the
drag has remembered is unchanged. -/
structure Dragged (start : Drag F) (before : List (FrameBlock F)) (block : FrameBlock F)
    (after : List (FrameBlock F)) (yaw : Option F) (s : Session F) : Prop where
  dragType : s.drag.dragType = start.dragType
  blockIndex : s.drag.blockIndex = before.length
  originalFrame : s.drag.originalFrame = block.frame
  originalHadStrafeYaw : s.drag.originalHadStrafeYaw = start.originalHadStrafeYaw
  originalStrafeyaw : s.drag.originalStrafeyaw = start.originalStrafeyaw
  blocks : ∃ delta, s.blocks = dragged start.dragType before block after delta yaw

section Moves

variable {start : Drag F} {before after : List (FrameBlock F)} {block : FrameBlock F}
  {yaw : Option F} {s : Session F}

section

variable (h : Dragged start before block after yaw s)
include h

theorem Dragged.dragPitch (ticks : Int) :
    Dragged start before block after yaw (s.dragPitch ticks) := by
  obtain ⟨delta, hblocks⟩ := h.blocks
  unfold Session.dragPitch
  split
  · refine ⟨h.dragType, h.blockIndex, h.originalFrame, h.originalHadStrafeYaw,
      h.originalStrafeyaw, ?_⟩
    show ∃ d, (s.dragFrames ticks).blocks = _
    unfold Session.dragFrames
    rw [h.dragType, h.blockIndex]
    cases htype : start.dragType with
    | none =>
      rw [htype] at hblocks
      exact ⟨delta, hblocks⟩
    | single =>
      rw [htype] at hblocks
      obtain ⟨d, hd⟩ := shiftSingleBlock_eq s.playback.currentScript before after _ hblocks ticks
      refine ⟨delta + d, ?_⟩
      dsimp only
      rw [hd]
      simp [dragged, followers]
    | stack =>
      rw [htype] at hblocks
      have hd := shiftBlocks_eq s.playback.currentScript before _ _ hblocks ticks
      generalize s.playback.currentScript.shiftDelta before.length _ ticks = d at hd
      refine ⟨delta + d, ?_⟩
      rw [hd]
      simp [dragged, followers, Function.comp_def]
  · exact h

theorem Dragged.dragYaw (host : Host F) :
    ∃ yaw', Dragged start before block after yaw' (s.dragYaw host) ∧
      (s.drag.accumYaw = 0 → yaw' = yaw) ∧ (s.dragYaw host).drag.accumYaw = 0 := by
  obtain ⟨delta, hblocks⟩ := h.blocks
  unfold Session.dragYaw
  split
  · next hne =>
    refine ⟨some (host.turn
      (((setYaw yaw (block.shiftFrame delta)).convars.find? Session.strafeYaw).getD (host.ofInt 0))
      s.drag.accumYaw), ⟨h.dragType, h.blockIndex, h.originalFrame,
      h.originalHadStrafeYaw, h.originalStrafeyaw, delta, ?_⟩, fun hzero => absurd hzero hne, rfl⟩
    show s.blocks.modify s.drag.blockIndex _ = _
    rw [hblocks, h.blockIndex, dragged, modify_append_cons]
    cases yaw with
    | none => rfl
    | some y => simp [dragged, setYaw, put_put]
  · next hzero => exact ⟨yaw, h, fun _ => rfl, not_not.mp hzero⟩

theorem Dragged.setDrag (move : MouseMove) :
    Dragged start before block after yaw { s with drag := Drag.accumulate s.drag move } :=
  ⟨h.dragType, h.blockIndex, h.originalFrame, h.originalHadStrafeYaw, h.originalStrafeyaw,
    h.blocks⟩

theorem Dragged.touchEdited (env : HostEnv) :
    Dragged start before block after yaw (s.touchEdited env) :=
  ⟨h.dragType, h.blockIndex, h.originalFrame, h.originalHadStrafeYaw, h.originalStrafeyaw,
    h.blocks⟩

end

theorem accumYaw_dragPitch (s : Session F) (ticks : Int) :
    (s.dragPitch ticks).drag.accumYaw = s.drag.accumYaw := by
  unfold Session.dragPitch
  split <;> rfl

theorem Dragged.mouseMove (h : Dragged start before block after yaw s) (host : Host F)
    (env : HostEnv) (move : MouseMove) :
    ∃ yaw', Dragged start before block after yaw' (s.dragMouseMove host env move) ∧
      (s.drag.accumYaw = 0 → move.yaw = 0 →
        yaw' = yaw ∧ (s.dragMouseMove host env move).drag.accumYaw = 0) := by
  unfold Session.dragMouseMove
  split
  · exact ⟨yaw, h, fun hzero _ => ⟨rfl, hzero⟩⟩
  · dsimp only
    obtain ⟨yaw', hdragged, hsame, haccum⟩ := ((h.setDrag move).dragPitch
      (pitchTicks (Drag.accumulate s.drag move).accumPitch)).dragYaw host
    rw [accumYaw_dragPitch] at hsame
    refine ⟨yaw', ?_, fun hzero hmove => ⟨hsame ?_, ?_⟩⟩
    · split
      · exact hdragged.touchEdited env
      · exact hdragged
    · show s.drag.accumYaw - move.yaw = 0
      rw [hzero, hmove, sub_zero]
    · split
      · exact haccum
      · exact haccum

/-- The movements of a drag, each with what the host answers then. -/
def mouseMoves (host : Host F) (s : Session F) (moves : List (HostEnv × MouseMove)) : Session F :=
  moves.foldl (fun s m => s.dragMouseMove host m.1 m.2) s

theorem Dragged.mouseMoves (h : Dragged start before block after yaw s) (host : Host F)
    (moves : List (HostEnv × MouseMove)) :
    ∃ yaw', Dragged start before block after yaw' (mouseMoves host s moves) ∧
      (s.drag.accumYaw = 0 → (∀ m ∈ moves, m.2.yaw = 0) → yaw' = yaw) := by
  induction moves generalizing s yaw with
  | nil => exact ⟨yaw, h, fun _ _ => rfl⟩
  | cons m moves ih =>
    obtain ⟨yaw₁, hnext, hsame⟩ := h.mouseMove host m.1 m.2
    obtain ⟨yaw₂, hlast, hrest⟩ := ih hnext
    refine ⟨yaw₂, hlast, fun hzero hmoves => ?_⟩
    obtain ⟨hyaw, haccum⟩ := hsame hzero (hmoves m mem_cons_self)
    rw [hrest haccum fun n hn => hmoves n (mem_cons_of_mem _ hn), hyaw]

end Moves

/-! ## Starting a drag -/

/-- The yaw in force after the last block. -/
def lastYaw (blocks : List (FrameBlock F)) : Option F :=
  lastValue (fun b => b.convars.find? Session.strafeYaw) blocks

/-- What `SelectDragIndex` remembers: whether the block had a yaw, and the yaw. -/
def remembered (host : Host F) (previous : F) (blocks : List (FrameBlock F))
    (block : FrameBlock F) : Bool × F :=
  match block.convars.find? Session.strafeYaw with
  | some yaw => (true, yaw)
  | none =>
    match lastYaw blocks with
    | some yaw => (host.toBool yaw, previous)
    | none => (false, host.ofInt 0)

theorem find?_strafeYaw_foldl (blocks : List (FrameBlock F)) :
    (blocks.foldl stack ({} : FrameBlock F)).convars.find? Session.strafeYaw =
      lastYaw blocks := by
  have h := find?_convars_stackAll ({} : FrameBlock F) blocks
    (show Session.strafeYaw ≠ str "skill" by decide)
  rw [show ({} : FrameBlock F).convars.find? Session.strafeYaw = none from rfl, Option.or_none] at h
  exact h

variable {block : FrameBlock F} {after before : List (FrameBlock F)}

theorem selectDragIndex_eq (host : Host F) (s : Session F)
    (hblocks : s.blocks = before ++ block :: after) :
    s.selectDragIndex host before.length =
      some { s with
        drag := { s.drag with
          blockIndex := before.length
          originalFrame := block.frame
          originalHadStrafeYaw :=
            (remembered host s.drag.originalStrafeyaw s.blocks block).1
          originalStrafeyaw := (remembered host s.drag.originalStrafeyaw s.blocks block).2 } } := by
  have hget : s.blocks[before.length]? = some block := by rw [hblocks, getElem?_append_cons]
  unfold Session.selectDragIndex remembered
  simp only [hget, find?_strafeYaw_foldl, some_bind]
  cases block.convars.find? Session.strafeYaw with
  | some yaw => rfl
  | none => cases lastYaw s.blocks <;> rfl

theorem dragged_start (host : Host F) (env : HostEnv) (s : Session F) (dragType : DragType)
    (hcam : s.inFreecam env = true) (hblocks : s.blocks = before ++ block :: after) :
    ∃ s', s.dragStart host env dragType (some before.length) = some s' ∧
      Dragged s'.drag before block after none s' ∧ s'.drag.dragType = dragType ∧
      (s'.drag.originalHadStrafeYaw, s'.drag.originalStrafeyaw) =
        remembered host s.drag.originalStrafeyaw s.blocks block ∧
      s'.drag.accumYaw = s.drag.accumYaw := by
  have hstart : s.blocks = dragged dragType before block after 0 none := by
    rw [hblocks]
    cases dragType <;> simp [dragged, followers, setYaw, map_shiftFrame_zero]
  unfold Session.dragStart
  rw [hcam]
  simp only [Bool.not_true, Bool.false_eq_true, if_false, selectDragIndex_eq host s hblocks,
    some_bind]
  exact ⟨_, rfl, ⟨rfl, rfl, rfl, rfl, rfl, 0, hstart⟩, rfl, rfl, rfl⟩

/-! ## Cancelling -/

/-- A block that differs from another at most in its yaw. -/
structure SameButYaw (block : FrameBlock F) (yaw : Option F) (b : FrameBlock F) : Prop where
  frame : b.frame = block.frame
  convars : ∀ name, b.convars.find? name =
    if name = Session.strafeYaw then yaw else block.convars.find? name
  toggles : b.toggles = block.toggles
  commands : b.commands = block.commands

theorem SameButYaw.sameContents_iff {b : FrameBlock F} {yaw : Option F} (h : SameButYaw block yaw b) :
    SameContents b block ↔ block.convars.find? Session.strafeYaw = yaw := by
  constructor
  · intro hsame
    rw [← hsame.convars Session.strafeYaw, h.convars, if_pos rfl]
  · intro hyaw
    refine ⟨⟨fun name => ?_, fun name => by rw [h.toggles], h.commands⟩, h.frame⟩
    rw [h.convars]
    split
    · next heq => rw [heq, hyaw]
    · rfl

theorem forall₂_sameContents_append_cons {b : FrameBlock F} :
    List.Forall₂ SameContents (before ++ b :: after) (before ++ block :: after) ↔
      SameContents b block := by
  induction before with
  | nil => simp [SameContents.refl]
  | cons c before ih => simp [SameContents.refl, ih]

section Cancel

variable {before after : List (FrameBlock F)} {block : FrameBlock F}

theorem sameButYaw_setYaw (yaw : Option F) (b : FrameBlock F) :
    SameButYaw b (yaw.or (b.convars.find? Session.strafeYaw)) (setYaw yaw b) := by
  cases yaw with
  | none =>
    refine ⟨rfl, fun name => ?_, rfl, rfl⟩
    split
    · next heq => rw [heq]; rfl
    · rfl
  | some y => exact ⟨rfl, fun name => find?_put _ _ _ _, rfl, rfl⟩

variable {yaw : Option F}

theorem SameButYaw.put {b : FrameBlock F} (h : SameButYaw block yaw b) (y : F) :
    SameButYaw block (some y) { b with convars := b.convars.put Session.strafeYaw y } := by
  refine ⟨h.frame, fun name => ?_, h.toggles, h.commands⟩
  rw [find?_put, h.convars]
  split <;> rfl

theorem SameButYaw.erase {b : FrameBlock F} (h : SameButYaw block yaw b) :
    SameButYaw block none { b with convars := b.convars.erase Session.strafeYaw } := by
  refine ⟨h.frame, fun name => ?_, h.toggles, h.commands⟩
  rw [find?_erase, h.convars]
  split <;> rfl

variable (script : TASScript F)

section

variable (h : script.blocks = before ++ block :: after)
include h

section

variable (hbefore : ∀ b ∈ before, b.frame < block.frame)
include hbefore

theorem getBlockIndex_eq
    :
    script.getBlockIndex block.frame = before.length := by
  unfold getBlockIndex
  rw [h]
  exact findIdx_append_cons (fun b hb => decide_eq_false (not_le.mpr (hbefore b hb)))
    (decide_eq_true le_rfl) after

theorem addCvar_blocks_eq (y : F) :
    (script.addCvar Session.strafeYaw y block.frame).blocks =
      before ++ { block with convars := block.convars.put Session.strafeYaw y } :: after := by
  have hindex := getBlockIndex_eq script h hbefore
  have hfound : script.getBlockForInsertion block.frame = (script, before.length) := by
    have hget : script.blocks[before.length]? = some block := by rw [h, getElem?_append_cons]
    simp [getBlockForInsertion, hindex, hget]
  unfold addCvar
  rw [hfound]
  show script.blocks.modify before.length _ = _
  rw [h, modify_append_cons]

theorem removeCvarsFromRange_blocks_eq (hafter : ∀ b ∈ after, block.frame < b.frame) :
    (script.removeCvarsFromRange Session.strafeYaw block.frame block.frame).blocks =
      before ++ { block with convars := block.convars.erase Session.strafeYaw } :: after := by
  have hother (l : List (FrameBlock F)) (hl : ∀ b ∈ l, b.frame ≠ block.frame) :
      l.map (fun b => if inRange block.frame block.frame b then
        { b with convars := b.convars.erase Session.strafeYaw } else b) = l := by
    refine (map_congr_left fun b hb => if_neg ?_).trans (map_id _)
    have := hl b hb
    simp only [inRange, Bool.and_eq_true, decide_eq_true_eq]
    omega
  show script.blocks.map _ = _
  rw [h, map_append, map_cons, hother before fun b hb => (hbefore b hb).ne,
    hother after fun b hb => (hafter b hb).ne', if_pos (by simp [inRange])]

end

theorem minValue_le {frame : Int}
    (hbefore : ∀ b ∈ before, b.frame < frame) (hnonneg : 0 ≤ frame) :
    script.minValue before.length ≤ frame := by
  unfold minValue
  split
  · exact hnonneg
  · next hne =>
    have hlt : before.length - 1 < before.length := by omega
    rw [h, getElem?_append_left hlt, getElem?_eq_getElem hlt]
    exact (hbefore _ (getElem_mem hlt)).le

end

theorem Dragged.dragCancelFrames {start : Drag F} {s : Session F}
    (h : Dragged start before block after yaw s) (htype : start.dragType ≠ .none)
    (hbefore : ∀ b ∈ before, b.frame < block.frame) (hnonneg : 0 ≤ block.frame) :
    ∃ script, s.dragCancelFrames = some script ∧
      script.blocks = before ++ setYaw yaw block :: after := by
  obtain ⟨delta, hblocks⟩ := h.blocks
  have hscript : s.playback.currentScript.blocks =
      before ++ setYaw yaw (block.shiftFrame delta) :: followers start.dragType delta after :=
    hblocks
  have hget : s.playback.currentScript.blocks[before.length]? =
      some (setYaw yaw (block.shiftFrame delta)) := by
    rw [hscript, getElem?_append_cons]
  unfold Session.dragCancelFrames
  simp only [h.blockIndex, hget, some_bind, h.originalFrame, h.dragType]
  cases hcase : start.dragType with
  | none => exact absurd hcase htype
  | single =>
    refine ⟨_, rfl, ?_⟩
    show s.playback.currentScript.blocks.modify before.length _ = _
    rw [hscript, modify_append_cons, hcase]
    cases yaw <;> rfl
  | stack =>
    refine ⟨_, rfl, ?_⟩
    have hdelta : s.playback.currentScript.shiftDelta before.length
        (setYaw yaw (block.shiftFrame delta))
        (block.frame - (setYaw yaw (block.shiftFrame delta)).frame) = -delta := by
      -- the clamp does not apply: the block was behind those before it
      have hmin := minValue_le s.playback.currentScript hscript hbefore hnonneg
      unfold shiftDelta
      rw [frame_setYaw, show (block.shiftFrame delta).frame = block.frame + delta from rfl]
      dsimp only
      split
      · split <;> omega
      · omega
    rw [shiftBlocks_eq _ _ _ _ hscript, hdelta, hcase]
    simp [followers, Function.comp_def]

theorem Dragged.dragCancel {start : Drag F} {s : Session F}
    (h : Dragged start before block after yaw s) (env : HostEnv) (htype : start.dragType ≠ .none)
    (hbefore : ∀ b ∈ before, b.frame < block.frame) (hafter : ∀ b ∈ after, block.frame < b.frame)
    (hnonneg : 0 ≤ block.frame) :
    ∃ s' b, s.dragCancel env = some s' ∧ s'.blocks = before ++ b :: after ∧
      SameButYaw block
        (if start.originalHadStrafeYaw then some start.originalStrafeyaw else none) b := by
  obtain ⟨script, hframes, hscript⟩ :=
    (h.touchEdited env).dragCancelFrames htype hbefore hnonneg
  have hyaw := sameButYaw_setYaw yaw block
  have hframe := frame_setYaw yaw block
  unfold Session.dragCancel
  simp only [hframes, some_bind, h.originalFrame, h.originalHadStrafeYaw, h.originalStrafeyaw]
  cases start.originalHadStrafeYaw with
  | true =>
    refine ⟨_, _, rfl, ?_, hyaw.put start.originalStrafeyaw⟩
    rw [← hframe]
    exact addCvar_blocks_eq script hscript (by rwa [hframe]) start.originalStrafeyaw
  | false =>
    refine ⟨_, _, rfl, ?_, hyaw.erase⟩
    rw [← hframe]
    exact removeCvarsFromRange_blocks_eq script hscript (by rwa [hframe]) (by rwa [hframe])

end Cancel

theorem remembered_eq_own_iff (host : Host F) (previous : F) (blocks : List (FrameBlock F))
    (block : FrameBlock F) :
    (block.convars.find? Session.strafeYaw =
        if (remembered host previous blocks block).1 then
          some (remembered host previous blocks block).2
        else none) ↔
      block.convars.contains Session.strafeYaw = true ∨
        ∀ yaw, lastYaw blocks = some yaw → host.toBool yaw = false := by
  unfold remembered OrderedMap.contains
  cases block.convars.find? Session.strafeYaw with
  | some y => simp
  | none =>
    cases lastYaw blocks with
    | none => simp
    | some y => cases htrue : host.toBool y <;> simp [htrue]

/-- Whatever the earlier drags have left behind and the mouse does, cancelling a drag restores every
block exactly if the block dragged sets the yaw itself, or the yaw in force at the end of the script
is absent or converts to false. -/
theorem drag_cancel_restores_iff (host : Host F) (env env' : HostEnv) (s : Session F)
    (hsorted : s.blocks.Pairwise fun a b => a.frame < b.frame)
    (hnonneg : ∀ b ∈ s.blocks, 0 ≤ b.frame) (hcam : s.inFreecam env = true)
    (dragType : DragType) (htype : dragType ≠ .none) (index : ℕ) (block : FrameBlock F)
    (hindex : s.blocks[index]? = some block) (moves : List (HostEnv × MouseMove)) :
    ∃ s₁ s₂, s.dragStart host env dragType (some index) = some s₁ ∧
      (mouseMoves host s₁ moves).dragCancel env' = some s₂ ∧
      (List.Forall₂ SameContents s₂.blocks s.blocks ↔
        block.convars.contains Session.strafeYaw = true ∨
          ∀ yaw, lastYaw s.blocks = some yaw → host.toBool yaw = false) := by
  obtain ⟨before, after, hsplit, rfl⟩ := split_at_getElem? hindex
  rw [hsplit] at hsorted
  obtain ⟨-, hrest, hcross⟩ := pairwise_append.mp hsorted
  obtain ⟨hafter, -⟩ := pairwise_cons.mp hrest
  obtain ⟨s₁, hstart, hdragged, hdragType, hremembered, -⟩ :=
    dragged_start host env s dragType hcam hsplit
  obtain ⟨yaw, hmoved, -⟩ := hdragged.mouseMoves host moves
  obtain ⟨s₂, b, hcancel, hblocks, hsame⟩ := hmoved.dragCancel env' (hdragType ▸ htype)
    (fun c hc => hcross c hc block mem_cons_self) hafter
    (hnonneg block (mem_of_getElem? hindex))
  refine ⟨s₁, s₂, hstart, hcancel, ?_⟩
  have hhad := congrArg Prod.fst hremembered
  have hyaw := congrArg Prod.snd hremembered
  dsimp only at hhad hyaw
  rw [hhad, hyaw] at hsame
  refine Iff.trans ?_ (remembered_eq_own_iff host s.drag.originalStrafeyaw s.blocks block)
  rw [← hsame.sameContents_iff, hblocks]
  conv_lhs => rw [hsplit]
  exact forall₂_sameContents_append_cons

/-! A paused game with the camera detached from the player, and a script with two blocks, of which
the first sets the yaw. -/

/-- The host while blocks are dragged. -/
def freecamEnv : HostEnv := { exampleEnv .connected with freecam := true }

/-- Blocks on frames 8 and 20; the first one sets the yaw to 30. -/
def twoBlocks : Session Int :=
  { Session.init exampleHost with
    gameState := .paused
    playback :=
      { currentScript :=
          { blocks :=
              [{ frame := 8, convars := empty.put Session.strafeYaw 30 },
                { frame := 20, toggles := empty.put (str "jump") true }] } } }

/-- The frame and the yaw of every block. -/
def framesAndYaws (s : Session Int) : List (Int × Option Int) :=
  s.blocks.map fun b => (b.frame, b.convars.find? Session.strafeYaw)

/-- A movement of the mouse by one tick and some degrees. -/
def oneTick (yaw : ℚ) : List (HostEnv × MouseMove) := [(freecamEnv, { yaw := yaw, pitch := -20 })]

/-- Dragging the block that sets the yaw, alone, is undone. -/
theorem drag_cancel_restores_own_yaw :
    ∃ s₁ s₂, twoBlocks.dragStart exampleHost freecamEnv .single (some 0) = some s₁ ∧
      framesAndYaws (mouseMoves exampleHost s₁ (oneTick 5)) = [(9, some 25), (20, none)] ∧
      (mouseMoves exampleHost s₁ (oneTick 5)).dragCancel freecamEnv = some s₂ ∧
      List.Forall₂ SameContents s₂.blocks twoBlocks.blocks := by
  obtain ⟨s₁, s₂, hstart, hcancel, hiff⟩ := drag_cancel_restores_iff exampleHost freecamEnv freecamEnv
    twoBlocks (by decide +kernel) (by decide +kernel) (by decide +kernel) .single nofun 0 _ rfl
    (oneTick 5)
  refine ⟨s₁, s₂, hstart, ?_, hcancel, hiff.mpr (.inl (by decide +kernel))⟩
  have hmoved : (twoBlocks.dragStart exampleHost freecamEnv .single (some 0)).map
      (fun s => framesAndYaws (mouseMoves exampleHost s (oneTick 5))) =
      some [(9, some 25), (20, none)] := by decide +kernel
  rw [hstart] at hmoved
  exact Option.some.inj hmoved

/-- Cancelling a drag of the block that inherits the yaw sets its yaw to 0. -/
theorem drag_cancel_adds_yaw :
    framesAndYaws twoBlocks = [(8, some 30), (20, none)] ∧
      ((twoBlocks.dragStart exampleHost freecamEnv .single (some 1)).bind
        (fun s => (mouseMoves exampleHost s (oneTick 5)).dragCancel freecamEnv)).map framesAndYaws =
      some [(8, some 30), (20, some 0)] := by
  decide +kernel

/-! ## Confirming -/

section Confirm

variable {before after : List (FrameBlock F)} {block : FrameBlock F}

theorem drag_modifyBlock (s : Session F) (i : ℕ) (f : FrameBlock F → FrameBlock F) :
    (s.modifyBlock i f).drag = s.drag := rfl

theorem blocks_modifyBlock (s : Session F) (i : ℕ) (f : FrameBlock F → FrameBlock F) :
    (s.modifyBlock i f).blocks = s.blocks.modify i f := rfl

theorem sameInputs_shiftFrame (delta : Int) (b : FrameBlock F) :
    SameInputs (b.shiftFrame delta) b := ⟨fun _ => rfl, fun _ => rfl, rfl⟩

theorem forall₂_sameInputs_followers (dragType : DragType) (delta : Int)
    (blocks : List (FrameBlock F)) :
    List.Forall₂ SameInputs (followers dragType delta blocks) blocks := by
  have hrefl : List.Forall₂ SameInputs blocks blocks :=
    forall₂_same.mpr fun b _ => .refl b
  cases dragType with
  | none => exact hrefl
  | single => exact hrefl
  | stack =>
    refine forall₂_map_left_iff.mpr (forall₂_same.mpr fun b _ => ?_)
    exact sameInputs_shiftFrame delta b

theorem forall₂_sameInputs_append_cons {after' : List (FrameBlock F)} {b : FrameBlock F}
    (hafter : List.Forall₂ SameInputs after' after) :
    List.Forall₂ SameInputs (before ++ b :: after') (before ++ block :: after) ↔
      SameInputs b block := by
  induction before with
  | nil => simp [hafter]
  | cons c before ih => simp [SameInputs.refl, ih]

/-- What confirming leaves of the yaw that the block had when the drag started. -/
def confirmedYaw [BEq F] (host : Host F) (original : F) (own : Option F) : Option F :=
  let yaw := own.getD (host.ofInt 0)
  if yaw == original then none else some yaw

theorem Dragged.dragConfirm [BEq F] {start : Drag F} {s : Session F}
    (h : Dragged start before block after none s) (host : Host F) :
    ∃ s' b delta, s.dragConfirm host = some s' ∧
      s'.blocks = before ++ b :: followers start.dragType delta after ∧
      SameButYaw (block.shiftFrame delta)
        (confirmedYaw host start.originalStrafeyaw (block.convars.find? Session.strafeYaw)) b := by
  obtain ⟨delta, hblocks⟩ := h.blocks
  have hscript : s.blocks =
      before ++ block.shiftFrame delta :: followers start.dragType delta after := hblocks
  have hget : s.blocks[before.length]? = some (block.shiftFrame delta) := by
    rw [hscript, getElem?_append_cons]
  have htouched : SameButYaw (block.shiftFrame delta)
      (some ((block.convars.find? Session.strafeYaw).getD (host.ofInt 0)))
      { block.shiftFrame delta with
        convars := block.convars.touch Session.strafeYaw (host.ofInt 0) } := by
    refine ⟨rfl, fun name => ?_, rfl, rfl⟩
    unfold touch OrderedMap.contains
    cases hown : block.convars.find? Session.strafeYaw with
    | none => exact find?_put _ _ _ _
    | some y =>
      show block.convars.find? name = _
      split
      · next heq => rw [heq, hown]; rfl
      · rfl
  unfold Session.dragConfirm
  simp only [h.blockIndex, hget, some_bind]
  rw [show (block.shiftFrame delta).convars = block.convars from rfl]
  by_cases heq : ((block.convars.find? Session.strafeYaw).getD (host.ofInt 0) ==
      start.originalStrafeyaw) = true
  · have hyaw :
        confirmedYaw host start.originalStrafeyaw (block.convars.find? Session.strafeYaw) = none :=
      if_pos heq
    rw [hyaw]
    refine ⟨_, _, delta, rfl, ?_, htouched.erase⟩
    show Session.blocks (ite _ _ _) = _
    simp only [drag_modifyBlock, h.originalStrafeyaw, h.blockIndex, heq, if_true,
      blocks_modifyBlock, hscript, modify_append_cons]
    rfl
  · have hyaw : confirmedYaw host start.originalStrafeyaw (block.convars.find? Session.strafeYaw) =
        some ((block.convars.find? Session.strafeYaw).getD (host.ofInt 0)) := if_neg heq
    rw [hyaw]
    refine ⟨_, _, delta, rfl, ?_, htouched⟩
    show Session.blocks (ite _ _ _) = _
    simp only [drag_modifyBlock, h.originalStrafeyaw, heq, Bool.false_eq_true, if_false,
      blocks_modifyBlock, hscript, modify_append_cons]
    rfl

/-- When the yaw of the block survives the confirmation: it is not equal to itself, or the block has
none and zero is what is remembered. -/
def KeptByConfirm [BEq F] (host : Host F) (previous : F) (blocks : List (FrameBlock F))
    (block : FrameBlock F) : Prop :=
  match block.convars.find? Session.strafeYaw with
  | some yaw => (yaw == yaw) = false
  | none =>
    match lastYaw blocks with
    | none => (host.ofInt 0 == host.ofInt 0) = true
    | some _ => (host.ofInt 0 == previous) = true

theorem confirmedYaw_eq_own_iff [BEq F] (host : Host F) (previous : F)
    (blocks : List (FrameBlock F)) (block : FrameBlock F) :
    block.convars.find? Session.strafeYaw = confirmedYaw host
        (remembered host previous blocks block).2 (block.convars.find? Session.strafeYaw) ↔
      KeptByConfirm host previous blocks block := by
  unfold confirmedYaw remembered KeptByConfirm
  cases block.convars.find? Session.strafeYaw with
  | some y => cases heq : (y == y) <;> simp [heq]
  | none =>
    cases lastYaw blocks with
    | none => cases heq : (host.ofInt 0 == host.ofInt 0) <;> simp [heq]
    | some y => cases heq : (host.ofInt 0 == previous) <;> simp [heq]

theorem SameButYaw.sameInputs_iff {block b : FrameBlock F} {yaw : Option F} {delta : Int}
    (h : SameButYaw (block.shiftFrame delta) yaw b) :
    SameInputs b block ↔ block.convars.find? Session.strafeYaw = yaw := by
  have hcontents := h.sameContents_iff
  refine Iff.trans ⟨fun hsame => ?_, fun hsame => ?_⟩ hcontents
  · exact ⟨⟨hsame.convars, hsame.toggles, hsame.commands⟩, h.frame⟩
  · exact ⟨hsame.convars, hsame.toggles, hsame.commands⟩

end Confirm

/-- Confirming a drag in which the mouse did not move sideways keeps the inputs of every block
exactly if the yaw of the block dragged survives. -/
theorem drag_confirm_keeps_inputs_iff [BEq F] (host : Host F) (env : HostEnv) (s : Session F)
    (hcam : s.inFreecam env = true) (haccum : s.drag.accumYaw = 0) (dragType : DragType)
    (index : ℕ) (block : FrameBlock F) (hindex : s.blocks[index]? = some block)
    (moves : List (HostEnv × MouseMove)) (hmoves : ∀ m ∈ moves, m.2.yaw = 0) :
    ∃ s₁ s₂, s.dragStart host env dragType (some index) = some s₁ ∧
      (mouseMoves host s₁ moves).dragConfirm host = some s₂ ∧
      (List.Forall₂ SameInputs s₂.blocks s.blocks ↔
        KeptByConfirm host s.drag.originalStrafeyaw s.blocks block) := by
  obtain ⟨before, after, hsplit, rfl⟩ := split_at_getElem? hindex
  obtain ⟨s₁, hstart, hdragged, -, hremembered, haccum₁⟩ :=
    dragged_start host env s dragType hcam hsplit
  obtain ⟨yaw, hmoved, hsame⟩ := hdragged.mouseMoves host moves
  obtain rfl := hsame (haccum₁.trans haccum) hmoves
  obtain ⟨s₂, b, delta, hconfirm, hblocks, hyaw⟩ := hmoved.dragConfirm host
  refine ⟨s₁, s₂, hstart, hconfirm, ?_⟩
  have horiginal := congrArg Prod.snd hremembered
  dsimp only at horiginal
  rw [horiginal] at hyaw
  refine Iff.trans ?_ (confirmedYaw_eq_own_iff host s.drag.originalStrafeyaw s.blocks block)
  rw [← hyaw.sameInputs_iff, hblocks]
  conv_lhs => rw [hsplit]
  exact forall₂_sameInputs_append_cons (forall₂_sameInputs_followers _ _ _)

/-- Dragging a block without a yaw, in a script without one, changes its frame only. -/
theorem drag_confirm_keeps_inputs_no_yaw :
    let s := twoBlocks.withScript { blocks := twoBlocks.blocks.drop 1 }
    ∃ s₁ s₂, s.dragStart exampleHost freecamEnv .stack (some 0) = some s₁ ∧
      (mouseMoves exampleHost s₁ (oneTick 0)).dragConfirm exampleHost = some s₂ ∧
      List.Forall₂ SameInputs s₂.blocks s.blocks := by
  intro s
  obtain ⟨s₁, s₂, hstart, hconfirm, hiff⟩ := drag_confirm_keeps_inputs_iff exampleHost freecamEnv s
    (by decide +kernel) (by decide +kernel) .stack 0 _ rfl (oneTick 0) (by decide +kernel)
  exact ⟨s₁, s₂, hstart, hconfirm, hiff.mpr (show (0 == 0) = true from rfl)⟩

/-- Confirming a drag that only moved the block erases the yaw that it had. -/
theorem drag_confirm_erases_yaw :
    framesAndYaws twoBlocks = [(8, some 30), (20, none)] ∧
      ((twoBlocks.dragStart exampleHost freecamEnv .single (some 0)).bind
        (fun s => (mouseMoves exampleHost s (oneTick 0)).dragConfirm exampleHost)).map
        framesAndYaws =
      some [(9, none), (20, none)] := by
  decide +kernel

end TASQuake.Analysis.DragUndo
