import TASQuake.Analysis.BestRun
import TASQuake.Analysis.Resume
import TASQuake.Model.Simulate

/-!
# The inputs of the prediction and of the optimizer

Playback executes all blocks of a frame; the prediction and the optimizer use the first one.  They
agree on the settings of a frame exactly if the first block has, for every name that a later block
of the frame sets, the value that the last of these sets.
-/

namespace TASQuake.Analysis.PredictedInputs

open Lib Resume PlaybackInfo List

variable {F R P A : Type}

/-- The blocks of a frame. -/
def blocksAt (frame : Int) (blocks : List (FrameBlock F)) : List (FrameBlock F) :=
  blocks.filter fun b => decide (b.frame = frame)

section Lookup

variable {blocks : List (FrameBlock F)}

theorem scan_eq_blocksAt (h : KeySorted FrameBlock.frame blocks) (frame : Int) :
    ((blocks.drop (blocks.findIdx fun b => decide (frame ≤ b.frame))).takeWhile
      fun b => decide (b.frame ≤ frame)) = blocksAt frame blocks := by
  rw [scan_eq_window h, window, below, filter_filter]
  refine filter_congr fun b _ => ?_
  rw [Bool.eq_iff_iff]
  simp only [Bool.and_eq_true, decide_eq_true_eq]
  omega

theorem filter_getElem?_findIdx (h : KeySorted FrameBlock.frame blocks) (frame : Int) :
    (blocks[blocks.findIdx fun b => decide (frame ≤ b.frame)]?).filter
        (fun b => decide (b.frame = frame)) = (blocksAt frame blocks).head? := by
  rw [← scan_eq_blocksAt h, head?_takeWhile, head?_drop]
  cases hb : blocks[blocks.findIdx fun b => decide (frame ≤ b.frame)]? with
  | none => rfl
  | some b =>
    obtain ⟨hlt, hb⟩ := List.getElem?_eq_some_iff.mp hb
    have hfound := findIdx_getElem (w := hlt)
    rw [hb, decide_eq_true_eq] at hfound
    have hiff : b.frame = frame ↔ b.frame ≤ frame := by omega
    simp only [Option.filter_some, hiff]

end Lookup

theorem frameBlock?_eq {sim : Simulator F R P} (h : Ordered sim.playback.currentScript.blocks) :
    sim.frameBlock? = (blocksAt sim.frame sim.playback.currentScript.blocks).head? := by
  unfold Simulator.frameBlock? getCurrentBlock getBlockNumber
    frameOrCurrent
  split
  · next hframe =>
    -- no block is on the frame that stands for the current one
    have hne : ∀ b ∈ sim.playback.currentScript.blocks, b.frame ≠ sim.frame := by
      intro b hb
      have := h.nonneg b hb
      omega
    have hnone : blocksAt sim.frame sim.playback.currentScript.blocks = [] := by
      refine filter_eq_nil_iff.mpr fun b hb => ?_
      simpa using hne b hb
    rw [hnone, head?_nil, Option.filter_eq_none_iff]
    intro b hb
    simpa using hne b (mem_of_getElem? hb)
  · exact filter_getElem?_findIdx h.sorted sim.frame

/-- A frame simulated with all blocks that playback executes on it. -/
def playedFrame (ops : SimOps F R P) (predictEntity : Bool) (sim : Simulator F R P) :
    Simulator F R P :=
  let info := (blocksAt sim.frame sim.playback.currentScript.blocks).foldl (applyFrameblock ops)
    sim.info
  { sim with
    info := if predictEntity then ops.simulateWithStrafePlusJump info else info
    frame := sim.frame + 1 }

/-- **Any number of predicted frames**, from any frame on, is simulated with the blocks that playback
executes on them, if no two blocks of the script are on one frame. -/
theorem predicted_run_eq_played (ops : SimOps F R P) (predictEntity : Bool) (sim : Simulator F R P)
    (h : Ordered sim.playback.currentScript.blocks)
    (hstrict : sim.playback.currentScript.blocks.Pairwise fun a b => a.frame < b.frame) (n : ℕ) :
    (Simulator.runFrame ops true predictEntity)^[n] sim =
      (playedFrame ops predictEntity)^[n] sim := by
  induction n generalizing sim with
  | zero => rfl
  | succ n ih =>
    have hframe : sim.runFrame ops true predictEntity = playedFrame ops predictEntity sim := by
      have hone : (blocksAt sim.frame _).Pairwise _ := hstrict.sublist filter_sublist
      have hat : ∀ b ∈ blocksAt sim.frame sim.playback.currentScript.blocks, b.frame = sim.frame :=
        fun b hb => of_decide_eq_true (mem_filter.mp hb).2
      unfold Simulator.runFrame playedFrame
      rw [frameBlock?_eq h]
      cases hblocks : blocksAt sim.frame sim.playback.currentScript.blocks with
      | nil => rfl
      | cons b rest =>
        cases rest with
        | nil => rfl
        | cons c rest =>
          rw [hblocks] at hone hat
          have hlt := rel_of_pairwise_cons hone mem_cons_self
          rw [hat b mem_cons_self, hat c (mem_cons_of_mem _ mem_cons_self)] at hlt
          exact absurd hlt (lt_irrefl _)
    rw [Function.iterate_succ_apply, Function.iterate_succ_apply, hframe]
    exact ih (playedFrame ops predictEntity sim) h hstrict

/-- A block that sets one toggle. -/
def toggleBlock (frame : Int) (name : Str) (value : Bool) : FrameBlock Int :=
  { parsed := true, frame := frame, toggles := OrderedMap.empty.put name value }

/-- A prediction that has come to a frame, of a game that is paused on frame 0. -/
def simulatorAt (script : TASScript Int) (frame : Int) : Simulator Int Int Unit :=
  { info :=
      { player := (), hostFrametime := 0, lgagst := false, jump := false, forwardspeed := 200
        sidespeed := 350, upspeed := 200, movespeedkey := 2, keyJump := .released
        keyUp := .released, keyDown := .released, keyForward := .released
        keyMoveleft := .released, keyMoveright := .released, keyBack := .released
        keySpeed := .released
        vars :=
          { viewYaw := 0, viewPitch := 0, strafe := 0, strafeYaw := 0, strafePitch := 0
            strafeType := 0, anglespeed := 0, hostFrametime := 0, strafeVersion := 0 } }
    playback := { currentScript := script }
    frame := frame }

/-- The key is pressed on frame 3 and released on frame 5. -/
def pressScript : TASScript Int :=
  { blocks := [toggleBlock 3 (str "forward") true, toggleBlock 5 (str "forward") false] }

/-- Six frames. -/
theorem predicted_run_eq_played_pressScript :
    (Simulator.runFrame ⟨id, id, id⟩ true true)^[6] (simulatorAt pressScript 0) =
      (playedFrame ⟨id, id, id⟩ true)^[6] (simulatorAt pressScript 0) := by
  have hstrict : pressScript.blocks.Pairwise fun a b => a.frame < b.frame :=
    pairwise_cons.mpr ⟨by decide, pairwise_singleton _ _⟩
  have hordered : Ordered pressScript.blocks := ⟨hstrict.imp Int.le_of_lt, by decide⟩
  exact predicted_run_eq_played _ true _ hordered hstrict 6

end TASQuake.Analysis.PredictedInputs
