import TASQuake.Analysis.BlockEdits
import TASQuake.Analysis.SettingBlock

/-!
# Settings made by the mouse

All settings of a mouse mode go to the same block (`OnBlock`), and one `SetConvar` after the other
leaves each convar at the last value set, up to `==` (`same_valueIn_writeConvars`).  What is in
effect differs afterwards exactly if the value that the block is left with differs and no later
block covers the difference (`convar_unchanged_iff`).
-/

namespace TASQuake

open Lib Session PlaybackInfo OrderedMap FrameBlock List

variable {F : Type}

/-! ## One block -/

section Block

variable [BEq F] (stacked : Str → F)

/-- The value of a convar on the current frame, whose block is `b`. -/
def valueIn (b : FrameBlock F) (name : Str) : F := (b.convars.find? name).getD (stacked name)

/-- What `SetConvar` does to the block of the current frame. -/
def writeConvar (b : FrameBlock F) (name : Str) (v : F) : FrameBlock F :=
  if v == valueIn stacked b name then b
  else if stacked name == v && b.convars.contains name then
    { b with convars := b.convars.erase name }
  else { b with convars := b.convars.put name v }

/-- What a run of `SetConvar` does to the block. -/
def writeConvars (b : FrameBlock F) (values : List (Str × F)) : FrameBlock F :=
  values.foldl (fun b e => writeConvar stacked b e.1 e.2) b

/-- Two blocks that differ in their convars only. -/
structure SameButConvars (a b : FrameBlock F) : Prop where
  frame : a.frame = b.frame
  toggles : a.toggles = b.toggles
  commands : a.commands = b.commands

omit [BEq F] in
theorem SameButConvars.trans {a b c : FrameBlock F} (h : SameButConvars a b)
    (h' : SameButConvars b c) : SameButConvars a c :=
  ⟨h.frame.trans h'.frame, h.toggles.trans h'.toggles, h.commands.trans h'.commands⟩

variable (b : FrameBlock F)

theorem sameButConvars_writeConvar (name : Str) (v : F) :
    SameButConvars (writeConvar stacked b name v) b := by
  unfold writeConvar
  split
  · exact ⟨rfl, rfl, rfl⟩
  · split <;> exact ⟨rfl, rfl, rfl⟩

theorem find?_writeConvar_of_ne {name k : Str} (v : F) (h : k ≠ name) :
    (writeConvar stacked b name v).convars.find? k = b.convars.find? k := by
  unfold writeConvar
  split
  · rfl
  · split
    · simp [find?_erase, h]
    · simp [find?_put, h]

theorem same_valueIn_writeConvar [PartialEquivBEq F] (name : Str) (v : F) :
    Same (valueIn stacked (writeConvar stacked b name v) name) v := by
  unfold writeConvar
  split
  · next h => exact .inr (BEq.symm h)
  · split
    · next h =>
      rw [Bool.and_eq_true] at h
      simp only [valueIn, find?_erase, if_true, Option.getD_none]
      exact .inr h.1
    · left
      simp [valueIn]

theorem sameButConvars_writeConvars (values : List (Str × F)) :
    SameButConvars (writeConvars stacked b values) b := by
  induction values generalizing b with
  | nil => exact ⟨rfl, rfl, rfl⟩
  | cons e values ih => exact (ih _).trans (sameButConvars_writeConvar stacked b e.1 e.2)

theorem find?_writeConvars_of_notMem {values : List (Str × F)} {k : Str}
    (h : k ∉ values.map Prod.fst) :
    (writeConvars stacked b values).convars.find? k = b.convars.find? k := by
  induction values generalizing b with
  | nil => rfl
  | cons e values ih =>
    simp only [map_cons, mem_cons, not_or] at h
    exact (ih _ h.2).trans (find?_writeConvar_of_ne stacked b e.2 h.1)

theorem same_valueIn_writeConvars [PartialEquivBEq F] {values : List (Str × F)}
    (hn : (values.map Prod.fst).Nodup) {e : Str × F} (he : e ∈ values) :
    Same (valueIn stacked (writeConvars stacked b values) e.1) e.2 := by
  induction values generalizing b with
  | nil => cases he
  | cons d values ih =>
    simp only [map_cons, nodup_cons] at hn
    rcases mem_cons.mp he with rfl | he
    · -- the settings after it are of other convars
      have hlater := find?_writeConvars_of_notMem stacked (writeConvar stacked b e.1 e.2) hn.1
      have hnow := same_valueIn_writeConvar stacked b e.1 e.2
      unfold valueIn at hnow ⊢
      show Same (((writeConvars stacked (writeConvar stacked b e.1 e.2) values).convars.find?
        e.1).getD _) _
      rwa [hlater]
    · exact ih _ hn.2 he

end Block

/-! ## The session -/

namespace Session

/-- All settings for the current frame go to `block`. -/
structure OnBlock (c : Int) (before : List (FrameBlock F)) (block : FrameBlock F)
    (after : List (FrameBlock F)) (s : Session F) : Prop where
  blocks : s.blocks = before ++ block :: after
  currentFrame : s.playback.currentFrame = c
  before_lt : ∀ b ∈ before, b.frame < c
  le_frame : c ≤ block.frame
  on : ∃ b ∈ s.blocks, b.frame = c

/-- Sessions that differ only in their playback, their savestates and the view angles. -/
structure SameEditor (s s' : Session F) : Prop where
  rest : s' = { s with
    playback := s'.playback, savestates := s'.savestates, viewPitch := s'.viewPitch,
    viewYaw := s'.viewYaw }
  stacked : s'.playback.stacked = s.playback.stacked

theorem SameEditor.refl (s : Session F) : SameEditor s s := ⟨rfl, rfl⟩

theorem SameEditor.trans {s t u : Session F} (h : SameEditor s t) (h' : SameEditor t u) :
    SameEditor s u := by
  refine ⟨?_, h'.stacked.trans h.stacked⟩
  rw [h'.rest, h.rest]

section OnBlock

variable {c : Int} {before after : List (FrameBlock F)} {block : FrameBlock F} {s : Session F}

theorem OnBlock.blockForFrame (h : OnBlock c before block after s) {f : Int}
    (hf : s.playback.frameOrCurrent f = c) :
    s.blockForFrame f = some (s, before.length, block) := by
  have hempty : s.playback.currentScript.blocks.isEmpty = false := by
    have hne : s.playback.currentScript.blocks = before ++ block :: after := h.blocks
    rw [hne]
    simp
  have hc : s.playback.frameOrCurrent c = c := by
    unfold frameOrCurrent
    rw [h.currentFrame, ite_self]
  have hhas : s.playback.currentFrameHasBlock c = true := by
    obtain ⟨b, hb, hbc⟩ := h.on
    unfold currentFrameHasBlock
    rw [hc, any_eq_true]
    exact ⟨b, hb, decide_eq_true hbc⟩
  have hnumber : s.playback.getBlockNumber c = before.length := by
    unfold getBlockNumber TASScript.getBlockIndex
    have hblocks : s.playback.currentScript.blocks = before ++ block :: after := h.blocks
    rw [hc, hblocks]
    exact findIdx_append_cons (fun b hb => decide_eq_false (not_le.mpr (h.before_lt b hb)))
      (decide_eq_true h.le_frame) after
  unfold Session.blockForFrame getBlockForFrame
  rw [hempty]
  dsimp only
  rw [hf, hhas, hnumber]
  show (s.blocks[before.length]?).bind _ = _
  rw [h.blocks, getElem?_append_cons]
  rfl

theorem OnBlock.frameOrCurrent (h : OnBlock c before block after s) :
    s.playback.frameOrCurrent (-1) = c := by
  unfold PlaybackInfo.frameOrCurrent
  rw [if_pos rfl, h.currentFrame]

variable {s' : Session F}

section

variable (h : OnBlock c before block after s)
include h

theorem OnBlock.write {block' : FrameBlock F}
    (hframe : block'.frame = block.frame) (hblocks : s'.blocks = before ++ block' :: after)
    (hcurrent : s'.playback.currentFrame = s.playback.currentFrame) :
    OnBlock c before block' after s' := by
  refine ⟨hblocks, hcurrent.trans h.currentFrame, h.before_lt, by rw [hframe]; exact h.le_frame, ?_⟩
  obtain ⟨b, hb, hbc⟩ := h.on
  rw [h.blocks] at hb
  rw [hblocks]
  rcases mem_append.mp hb with hb | hb
  · exact ⟨b, mem_append_left _ hb, hbc⟩
  · rcases mem_cons.mp hb with rfl | hb
    · exact ⟨block', by simp, hframe.trans hbc⟩
    · exact ⟨b, by simp [hb], hbc⟩

theorem OnBlock.getExistingValue (host : Host F) (name : Str) :
    getExistingValue host s name = some (s, valueIn (getStackedValue host s) block name) := by
  unfold Session.getExistingValue
  rw [h.blockForFrame h.frameOrCurrent]
  rfl

theorem OnBlock.hasExistingValue (name : Str) :
    ∃ has, hasExistingValue s name = some (s, has) := by
  unfold Session.hasExistingValue
  rw [h.blockForFrame h.frameOrCurrent]
  exact ⟨_, rfl⟩

theorem OnBlock.getPitchConvar (host : Host F) (name : Str) :
    ∃ v, getPitchConvar host s name = some (s, v) := by
  obtain ⟨has, hhas⟩ := h.hasExistingValue name
  unfold Session.getPitchConvar
  rw [hhas]
  cases has with
  | true => exact ⟨_, h.getExistingValue host name⟩
  | false => exact ⟨_, rfl⟩

theorem OnBlock.getYawConvar (host : Host F) (name : Str) :
    ∃ v, getYawConvar host s name = some (s, v) := by
  obtain ⟨has, hhas⟩ := h.hasExistingValue name
  unfold Session.getYawConvar
  rw [hhas]
  cases has with
  | true => exact ⟨_, h.getExistingValue host name⟩
  | false => exact ⟨_, rfl⟩

theorem OnBlock.congr (hs : s'.playback = s.playback) :
    OnBlock c before block after s' := by
  obtain ⟨hblocks, hcurrent, hbefore, hle, hon⟩ := h
  have hb : s'.blocks = s.blocks := by
    unfold Session.blocks
    rw [hs]
  exact ⟨hb.trans hblocks, by rw [hs]; exact hcurrent, hbefore, hle, hb ▸ hon⟩

theorem OnBlock.setConvar [BEq F] (host : Host F) (env : HostEnv) (name : Str) (v : F) :
    ∃ s', setConvar host env s name v (-1) = some s' ∧ SameEditor s s' ∧
      OnBlock c before (writeConvar (getStackedValue host s) block name v) after s' := by
  unfold Session.setConvar writeConvar
  rw [h.frameOrCurrent, h.getExistingValue host name]
  dsimp only [Option.bind_eq_bind, Option.bind_some]
  by_cases hold : (v == valueIn (getStackedValue host s) block name) = true
  · simp only [hold, if_true]
    exact ⟨s, rfl, .refl s, h⟩
  · have htouched : OnBlock c before block after (touchEdited env s) :=
      ⟨h.blocks, h.currentFrame, h.before_lt, h.le_frame, h.on⟩
    have hc : (touchEdited env s).playback.frameOrCurrent c = c := by
      unfold PlaybackInfo.frameOrCurrent
      rw [htouched.currentFrame, ite_self]
    have hstacked : getStackedValue host (touchEdited env s) name = getStackedValue host s name := rfl
    have hmodify : ∀ g : FrameBlock F → FrameBlock F, (∀ b, (g b).frame = b.frame) →
        OnBlock c before (g block) after
          (((touchEdited env s).modifyBlock before.length g).scriptUpdated c) := by
      intro g hg
      refine h.write (hg block) ?_ rfl
      show s.blocks.modify before.length g = _
      rw [h.blocks, modify_append_cons]
    simp only [hold, htouched.blockForFrame hc, Option.bind_some, hstacked, Bool.false_eq_true,
      if_false]
    by_cases herase : (Session.getStackedValue host s name == v && block.convars.contains name) = true
    · simp only [herase, if_true]
      exact ⟨_, rfl, ⟨rfl, rfl⟩,
        hmodify (fun b => { b with convars := b.convars.erase name }) fun _ => rfl⟩
    · simp only [herase, Bool.false_eq_true, if_false]
      exact ⟨_, rfl, ⟨rfl, rfl⟩,
        hmodify (fun b => { b with convars := b.convars.put name v }) fun _ => rfl⟩

end

theorem SameEditor.getStackedValue (h : SameEditor s s') (host : Host F) :
    getStackedValue host s' = getStackedValue host s := by
  funext name
  unfold Session.getStackedValue
  rw [h.stacked]

/-- **A run of settings** on the current frame. -/
theorem OnBlock.setConvars [BEq F] (h : OnBlock c before block after s) (host : Host F)
    (env : HostEnv) (values : List (Str × F)) :
    ∃ s', setConvars host env s values = some s' ∧ SameEditor s s' ∧
      OnBlock c before (writeConvars (getStackedValue host s) block values) after s' := by
  induction values generalizing s block with
  | nil => exact ⟨s, rfl, .refl s, h⟩
  | cons e values ih =>
    obtain ⟨s₁, hset, hsame, hon⟩ := h.setConvar host env e.1 e.2
    obtain ⟨s₂, hrest, hsame', hon'⟩ := ih hon
    refine ⟨s₂, ?_, hsame.trans hsame', ?_⟩
    · show Option.bind (Session.setConvar host env s e.1 e.2 (-1)) _ = _
      rw [hset]
      exact hrest
    · rw [hsame.getStackedValue host] at hon'
      exact hon'

end OnBlock

end Session

/-! ## What is in effect -/

section Effect

variable {c : Int} {before after : List (FrameBlock F)} {block block' : FrameBlock F}

/-- A later block of the vector that is not after the frame of `block` sets the convar. -/
def Covered (block : FrameBlock F) (after : List (FrameBlock F)) (name : Str) : Prop :=
  ∃ b ∈ after, b.frame ≤ block.frame ∧ b.hasConvar name = true

theorem lastValue_upTo_after_eq_none_iff (block : FrameBlock F) (after : List (FrameBlock F))
    (name : Str) :
    lastValue (fun b => b.convars.find? name) (upTo block.frame after) = none ↔
      ¬ Covered block after name := by
  rw [lastValue_eq_none_iff]
  unfold upTo Covered hasConvar OrderedMap.contains
  simp only [mem_filter, decide_eq_true_eq, not_exists, not_and, Option.not_isSome_iff_eq_none]
  exact ⟨fun h b hb hle => h b ⟨hb, hle⟩, fun h b hb => h b hb.1 hb.2⟩

/-- **When the contents of the block make no difference**: the values agree, or they are
covered. -/
theorem convar_unchanged_iff [BEq F] (hbefore : ∀ b ∈ before, b.frame < block.frame)
    (hframe : block'.frame = block.frame) (name : Str) (d : F) :
    (∀ g, Same ((effectiveConvar (before ++ block' :: after) g name).getD d)
      ((effectiveConvar (before ++ block :: after) g name).getD d)) ↔
    Same
      ((block'.convars.find? name).getD
        ((lastValue (fun b => b.convars.find? name) before).getD d))
      ((block.convars.find? name).getD
        ((lastValue (fun b => b.convars.find? name) before).getD d)) ∨
      Covered block after name := by
  have hor : ∀ x y : Option F, (x.or y).getD d = x.getD (y.getD d) := by
    intro x y
    cases x <;> rfl
  have hat : ∀ {b : FrameBlock F} {g : Int}, b.frame = block.frame → block.frame ≤ g →
      (effectiveConvar (before ++ b :: after) g name).getD d =
        (lastValue (fun b => b.convars.find? name) (upTo g after)).getD
          ((b.convars.find? name).getD
            ((lastValue (fun b => b.convars.find? name) before).getD d)) := by
    intro b g hb hg
    unfold effectiveConvar
    rw [lastValue_upTo_of_frame_le (by rwa [hb]) (by rwa [hb]), hor, hor]
  constructor
  · intro hall
    have hhere := hall block.frame
    rw [hat hframe (le_refl _), hat rfl (le_refl _)] at hhere
    cases hlater : lastValue (fun b => b.convars.find? name) (upTo block.frame after) with
    | none =>
      rw [hlater] at hhere
      exact .inl hhere
    | some v =>
      right
      by_contra hnot
      rw [(lastValue_upTo_after_eq_none_iff block after name).mpr hnot] at hlater
      cases hlater
  · intro hcases g
    by_cases hg : block.frame ≤ g
    · rw [hat hframe hg, hat rfl hg]
      rcases hcases with hsame | ⟨b, hb, hle, hset⟩
      · cases lastValue (fun b => b.convars.find? name) (upTo g after) with
        | none => exact hsame
        | some v => exact .refl v
      · -- a block that covers the frame still does so later
        cases hlater : lastValue (fun b => b.convars.find? name) (upTo g after) with
        | none =>
          have hnone := (lastValue_eq_none_iff _ _).mp hlater b
            (mem_filter.mpr ⟨hb, decide_eq_true (hle.trans hg)⟩)
          rw [hasConvar, OrderedMap.contains, hnone] at hset
          cases hset
        | some v => exact .refl v
    · have hlt : g < block.frame := not_le.mp hg
      unfold effectiveConvar
      rw [upTo_of_lt_frame hlt, upTo_of_lt_frame (by rwa [hframe])]
      exact .refl _

end Effect

theorem Session.getStackedValue_eq {s : Session F} (h : s.StackUpToDate) (host : Host F)
    {name : Str} (hname : name ≠ str "skill") :
    getStackedValue host s name = (lastValue (fun b => b.convars.find? name)
      (s.blocks.takeWhile fun b => decide (b.frame < s.playback.currentFrame))).getD
        (host.defaultValue name) := by
  unfold getStackedValue
  rw [h]
  show ((stackAll s.playback.stacked.reset _).convars.find? name).getD _ = _
  rw [find?_convars_stackAll _ _ hname]
  simp [reset, blocks]

end TASQuake
