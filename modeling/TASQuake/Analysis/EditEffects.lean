import TASQuake.Analysis.EditLocality
import TASQuake.Model.Editing

/-!
# What an operation on the session can do

`Keeps s s'`: neither the script nor the savestates are touched.  `Effect E s s'`: savestates are at
most dropped, and the blocks before a frame `k` stay if all the frames of `E` are at or after `k`.
`Edits E s s'` says besides that the current frame stays, so that edits can be composed.
-/

namespace TASQuake.Session

open Lib TASScript PlaybackInfo Option List

variable {F : Type}

/-- The live savestates with their keys. -/
def entries (s : Session F) : List (Int × Savestate (List (FrameBlock F))) :=
  s.savestates.savestateMap.entries

/-- The shot mode is only ever entered with a positive number of turn frames. -/
def ShotMode (s : Session F) : Prop := s.mouse = .shot → 0 < s.currentTurnframes

structure Keeps (s s' : Session F) : Prop where
  script : s'.playback.currentScript = s.playback.currentScript
  savestates : s'.savestates = s.savestates
  mouse : s'.mouse = s.mouse ∨ s'.mouse = .locked
  turnframes : s'.currentTurnframes = s.currentTurnframes

structure Effect (E : List Int) (s s' : Session F) : Prop where
  entries : ∀ e ∈ s'.entries, e ∈ s.entries
  below : ∀ k, (∀ f ∈ E, k ≤ f) → blocksBelow k s'.blocks = blocksBelow k s.blocks
  shotMode : ShotMode s → ShotMode s'

structure Edits (E : List Int) (s s' : Session F) : Prop extends Effect E s s' where
  currentFrame : s'.playback.currentFrame = s.playback.currentFrame

/-- Edits at the current frame. -/
abbrev EditsHere (s s' : Session F) : Prop := Edits [s.playback.currentFrame] s s'

section Rules

variable {D E : List Int} {s t u : Session F}

theorem Keeps.rfl : Keeps s s := ⟨Eq.refl _, Eq.refl _, .inl (Eq.refl _), Eq.refl _⟩

theorem Keeps.trans (h : Keeps s t) (h' : Keeps t u) : Keeps s u where
  script := h'.script.trans h.script
  savestates := h'.savestates.trans h.savestates
  mouse := by
    rcases h'.mouse with hm | hm
    · rw [hm]
      exact h.mouse
    · exact .inr hm
  turnframes := h'.turnframes.trans h.turnframes

theorem Keeps.blocks_eq (h : Keeps s t) : t.blocks = s.blocks := congrArg TASScript.blocks h.script

theorem Keeps.shotMode (h : Keeps s t) (hs : ShotMode s) : ShotMode t := by
  intro hshot
  rw [h.turnframes]
  rcases h.mouse with hm | hm
  · exact hs (hm ▸ hshot)
  · rw [hm] at hshot
    cases hshot

theorem Keeps.effect (h : Keeps s t) : Effect E s t where
  entries e he := by
    unfold Session.entries at he ⊢
    rw [← h.savestates]
    exact he
  below _ _ := by rw [h.blocks_eq]
  shotMode := h.shotMode

theorem Keeps.edits (h : Keeps s t) (hf : t.playback.currentFrame = s.playback.currentFrame) :
    Edits E s t :=
  { h.effect with currentFrame := hf }

theorem Effect.trans (h : Effect E s t) (h' : Effect E t u) : Effect E s u where
  entries e he := h.entries e (h'.entries e he)
  below k hk := (h'.below k hk).trans (h.below k hk)
  shotMode hs := h'.shotMode (h.shotMode hs)

theorem Effect.mono (h : Effect D s t) (hE : ∀ f ∈ D, f ∈ E) : Effect E s t :=
  { h with below := fun k hk => h.below k fun f hf => hk f (hE f hf) }

theorem Edits.rfl : Edits E s s := Keeps.rfl.edits (Eq.refl _)

theorem Edits.trans (h : Edits E s t) (h' : Edits E t u) : Edits E s u :=
  { h.toEffect.trans h'.toEffect with currentFrame := h'.currentFrame.trans h.currentFrame }

theorem Edits.mono (h : Edits D s t) (hE : ∀ f ∈ D, f ∈ E) : Edits E s t :=
  { h.toEffect.mono hE with currentFrame := h.currentFrame }

/-- **The fold rule.**  Edits made one after the other, all while the current frame is `c`. -/
theorem Edits.foldlM {α : Type} {f : Session F → α → Option (Session F)} {c : Int} {l : List α}
    (hf : ∀ a ∈ l, ∀ t u : Session F, t.playback.currentFrame = c → f t a = some u → Edits E t u)
    (hc : s.playback.currentFrame = c) (h : l.foldlM f s = some t) : Edits E s t := by
  induction l generalizing s with
  | nil =>
    cases h
    exact .rfl
  | cons a l ih =>
    rw [foldlM_cons] at h
    obtain ⟨u, hu, h⟩ := bind_eq_some_iff.mp h
    have hedit := hf a mem_cons_self s u hc hu
    exact hedit.trans (ih (fun b hb => hf b (mem_cons_of_mem _ hb))
      (hedit.currentFrame.trans hc) h)

end Rules

/-! ## Playback -/

section Playback

variable (host : Host F) (env : HostEnv)

theorem keeps_setPauseFrame {s s' : Session F} {frame : Int} (h : s.setPauseFrame frame = some s') :
    Keeps s s' := by
  obtain ⟨_, rfl⟩ := setPauseFrame_inv h
  exact ⟨rfl, rfl, .inl rfl, rfl⟩

variable (s : Session F)

theorem keeps_savestateSkip (k : Int) : Keeps s (savestateSkip host s k) := by
  unfold savestateSkip
  simp only
  split <;> exact ⟨rfl, rfl, .inl rfl, rfl⟩

theorem keeps_savestateLoadState (frame : Int) : Keeps s (savestateLoadState env s frame).1 := by
  unfold savestateLoadState
  split <;> exact ⟨rfl, rfl, .inl rfl, rfl⟩

theorem keeps_skipScript (frame : Int) (ss : Bool) : Keeps s (skipScript host env s frame ss) := by
  unfold skipScript
  simp only
  split
  · exact (keeps_savestateLoadState env s frame).trans ⟨rfl, rfl, .inl rfl, rfl⟩
  · exact (keeps_savestateLoadState env s frame).trans (keeps_savestateSkip host _ _)

theorem keeps_startScript (frame : Int) (skip ss : Bool) :
    Keeps s (startScript host env s frame skip ss) := by
  have hprep : Keeps s s.prepareScript := ⟨rfl, rfl, .inl rfl, rfl⟩
  have hrun : ∀ t : Session F, Keeps t t.setRunning := fun t => ⟨rfl, rfl, .inl rfl, rfl⟩
  unfold startScript
  split
  · exact (hprep.trans (keeps_skipScript host env _ frame ss)).trans (hrun _)
  · exact hprep.trans (hrun _)

theorem keeps_queueScript (frame : Int) (skip ss : Bool) :
    Keeps s (queueScript s frame skip ss) := by
  unfold queueScript
  split <;> exact ⟨rfl, rfl, .inl rfl, rfl⟩

theorem keeps_runScript (frame : Int) (skip ss : Bool) :
    Keeps s (runScript host env s frame skip ss) := by
  unfold runScript
  split
  · exact .rfl
  · next s' hs' =>
    split
    · exact (keeps_setPauseFrame hs').trans (keeps_startScript host env _ _ _ _)
    · exact (keeps_setPauseFrame hs').trans (keeps_queueScript _ _ _ _)

theorem keeps_genericAdvance (frame : Int) : Keeps s (genericAdvance host env s frame) := by
  unfold genericAdvance continueScript
  split
  · split
    · exact .rfl
    · next s' hs' => exact (keeps_setPauseFrame hs').trans ⟨rfl, rfl, .inl rfl, rfl⟩
  · split
    · exact .rfl
    · exact keeps_runScript host env s frame true true

theorem keeps_scriptSkipBlock (block : Int) : Keeps s (scriptSkipBlock host env s block) := by
  unfold scriptSkipBlock skipToBlock
  simp only
  generalize (if block < 0 then (s.blocks.length : Int) - (0 - block) else block) = target
  split
  · exact .rfl
  · split
    · exact .rfl
    · exact keeps_runScript host env s _ true true

theorem keeps_scriptAdvance (frames : Int) : Keeps s (scriptAdvance host env s frames) := by
  unfold scriptAdvance
  split
  · exact .rfl
  · exact keeps_genericAdvance host env s _

theorem keeps_scriptAdvanceBlock (count : Int) : Keeps s (scriptAdvanceBlock host env s count) := by
  unfold scriptAdvanceBlock
  simp only
  split
  · exact .rfl
  · split
    · exact .rfl
    · split
      · exact .rfl
      · exact keeps_genericAdvance host env s _

theorem keeps_playOrPause : Keeps s (playOrPause host env s) := by
  unfold playOrPause playFrame
  simp only
  split_ifs
  all_goals first
    | exact ⟨rfl, rfl, .inl rfl, rfl⟩
    | exact ⟨rfl, rfl, .inr rfl, rfl⟩

end Playback

/-! ## Settings -/

section Settings

variable {E : List Int} {s s' : Session F}

theorem edits_touchEdited (env : HostEnv) : Edits E s (touchEdited env s) := by
  apply Keeps.edits
  · exact ⟨rfl, rfl, .inl rfl, rfl⟩
  · rfl

theorem edits_scriptUpdated (frame : Int) : Edits E s (s.scriptUpdated frame) where
  entries _ he := (SortedMap.mem_eraseAbove.mp he).1
  below _ _ := rfl
  shotMode h := h
  currentFrame := rfl

theorem edits_withScript {script : TASScript F}
    (h : ∀ k, (∀ f ∈ E, k ≤ f) → blocksBelow k script.blocks = blocksBelow k s.blocks) :
    Edits E s (s.withScript script) where
  entries _ he := he
  below := h
  shotMode h := h
  currentFrame := rfl

variable {frame : Int} {i : ℕ}

theorem edits_modifyBlock {g : FrameBlock F → FrameBlock F} (hE : frame ∈ E)
    (hg : ∀ b, (g b).frame = b.frame) (hi : ∀ b, s.blocks[i]? = some b → frame ≤ b.frame) :
    Edits E s (s.modifyBlock i g) := by
  apply edits_withScript
  intro k hk
  apply blocksBelow_modify hg
  intro b hb
  exact (hk frame hE).trans (hi b hb)

theorem edits_blockForFrame {block : FrameBlock F} (h : s.blockForFrame frame = some (s', i, block)) :
    Edits [s.playback.frameOrCurrent frame] s s' ∧
      ∀ b, s'.blocks[i]? = some b → s.playback.frameOrCurrent frame ≤ b.frame := by
  unfold blockForFrame at h
  simp only [bind_eq_some, Prod.exists, some.injEq, Prod.mk.injEq] at h
  obtain ⟨playback, j, hplay, b, hb, rfl, rfl, rfl⟩ := h
  obtain ⟨hbelow, hon, hframe⟩ := getBlockForFrame_spec hplay
  exact ⟨⟨⟨fun _ he => he, fun k hk => hbelow k (hk _ mem_cons_self), fun hs => hs⟩, hframe⟩,
    hon⟩

variable {v : F} {host : Host F} {name : Str}

theorem edits_getExistingValue (h : getExistingValue host s name = some (s', v)) :
    EditsHere s s' := by
  unfold getExistingValue at h
  simp only [bind_eq_some, Prod.exists, some.injEq, Prod.mk.injEq] at h
  obtain ⟨t, i, b, hb, rfl, -⟩ := h
  exact (edits_blockForFrame hb).1

theorem edits_hasExistingValue {v : Bool} (h : hasExistingValue s name = some (s', v)) :
    EditsHere s s' := by
  unfold hasExistingValue at h
  simp only [bind_eq_some, Prod.exists, some.injEq, Prod.mk.injEq] at h
  obtain ⟨t, i, b, hb, rfl, -⟩ := h
  exact (edits_blockForFrame hb).1

theorem edits_getExistingToggle {cmd : Str} {v : Bool}
    (h : getExistingToggle s cmd = some (s', v)) : EditsHere s s' := by
  unfold getExistingToggle at h
  simp only [bind_eq_some, Prod.exists, some.injEq, Prod.mk.injEq] at h
  obtain ⟨t, i, b, hb, rfl, -⟩ := h
  exact (edits_blockForFrame hb).1

theorem edits_writeBlock {block : FrameBlock F} (hE : s.playback.frameOrCurrent frame ∈ E)
    (h : s.blockForFrame frame = some (s', i, block)) {g : FrameBlock F → FrameBlock F}
    (hg : ∀ b, (g b).frame = b.frame) : Edits E s (s'.modifyBlock i g) := by
  obtain ⟨hedit, hon⟩ := edits_blockForFrame h
  have hsub : ∀ f ∈ [s.playback.frameOrCurrent frame], f ∈ E := by
    intro f hf
    rw [mem_singleton.mp hf]
    exact hE
  exact (hedit.mono hsub).trans (edits_modifyBlock hE hg hon)

variable {env : HostEnv}

theorem edits_setConvar [BEq F] (h : setConvar host env s name v frame = some s') :
    Edits [s.playback.frameOrCurrent frame, s.playback.currentFrame] s s' := by
  unfold setConvar at h
  simp only [bind_eq_bind, bind_eq_some_iff, Prod.exists] at h
  obtain ⟨t, oldVal, hread, h⟩ := h
  have hread' := (edits_getExistingValue hread).mono
    (E := [s.playback.frameOrCurrent frame, s.playback.currentFrame]) fun f hf =>
    mem_cons_of_mem _ hf
  split at h
  · cases h
    exact hread'
  · simp only [bind_eq_some_iff, Prod.exists, some.injEq] at h
    obtain ⟨u, i, block, hblock, rfl⟩ := h
    have hmem : (touchEdited env t).playback.frameOrCurrent (s.playback.frameOrCurrent frame) ∈
        [s.playback.frameOrCurrent frame, s.playback.currentFrame] := by
      have hcur : (touchEdited env t).playback.currentFrame = s.playback.currentFrame :=
        hread'.currentFrame
      unfold frameOrCurrent
      rw [hcur]
      by_cases hf : frame = -1
      · rw [if_pos hf, ite_self]
        exact mem_cons_self
      · rw [if_neg hf, if_neg hf]
        exact mem_cons_self
    refine (hread'.trans ((edits_touchEdited env).trans ?_)).trans (edits_scriptUpdated _)
    split
    · exact edits_writeBlock hmem hblock fun _ => rfl
    · exact edits_writeBlock hmem hblock fun _ => rfl

theorem edits_setToggle {cmd : Str} {v : Bool} (h : setToggle env s cmd v frame = some s') :
    Edits [s.playback.frameOrCurrent frame] s s' := by
  unfold setToggle at h
  simp only [bind_eq_some, Prod.exists, some.injEq] at h
  obtain ⟨t, i, block, hblock, rfl⟩ := h
  have hmem : (touchEdited env s).playback.frameOrCurrent (s.playback.frameOrCurrent frame) ∈
      [s.playback.frameOrCurrent frame] :=
    mem_singleton.mpr (frameOrCurrent_frameOrCurrent s.playback frame)
  refine ((edits_touchEdited env).trans ?_).trans (edits_scriptUpdated _)
  split
  · exact edits_writeBlock hmem hblock fun _ => rfl
  · exact edits_writeBlock hmem hblock fun _ => rfl

theorem edits_setConvar_current [BEq F] (h : setConvar host env s name v (-1) = some s') :
    EditsHere s s' := by
  refine (edits_setConvar h).mono ?_
  intro f hf
  rcases mem_cons.mp hf with rfl | hf
  · exact mem_singleton.mpr rfl
  · exact hf

theorem edits_setConvars [BEq F] {values : List (Str × F)}
    (h : setConvars host env s values = some s') : EditsHere s s' := by
  refine Edits.foldlM ?_ rfl h
  intro e _ t t' hc ht
  rw [← hc]
  exact edits_setConvar_current ht

theorem edits_returnStacked [BEq F] {names : List Str}
    (h : returnStacked host env s names = some s') : EditsHere s s' := by
  refine Edits.foldlM ?_ rfl h
  intro e _ t t' hc ht
  rw [← hc]
  exact edits_setConvar_current ht

end Settings

/-! ## The mouse modes -/

section Modes

variable {s s' : Session F}

theorem edits_applyShot [BEq F] (env : HostEnv) (hturn : 0 < s.currentTurnframes) :
    Edits [turnFrame s.playback.currentFrame s.currentTurnframes - clearRange] s
      (s.applyShot env) := by
  unfold applyShot
  simp only
  split
  · refine ⟨⟨fun _ he => he, ?_, fun h => h⟩, rfl⟩
    intro k hk
    exact blocksBelow_addShot _ _ _ hturn (hk _ mem_cons_self)
  · exact .rfl

variable {host : Host F} {env : HostEnv}

theorem edits_applyMouseStuff [BEq F] (hmode : s.mouse ≠ .shot)
    (h : applyMouseStuff host env s = some s') : EditsHere s s' := by
  unfold applyMouseStuff at h
  split at h
  · cases h
    exact .rfl
  iterate 5 exact edits_setConvars h
  · next hs => exact absurd hs hmode

variable {v : F} {name : Str}

/-- The readers that `Cmd_TAS_Edit_...` start with: the value of a convar that the script sets, and
`view` if it does not. -/
theorem edits_readOr (view : Session F → F)
    (h : ((hasExistingValue s name).bind fun p => if p.2 then getExistingValue host p.1 name else some (p.1, view p.1)) = some (s', v)) :
    EditsHere s s' := by
  obtain ⟨⟨t, has⟩, ht, h⟩ := bind_eq_some_iff.mp h
  have hhas := edits_hasExistingValue ht
  split at h
  · have hread := edits_getExistingValue h
    unfold EditsHere at hread
    rw [hhas.currentFrame] at hread
    exact hhas.trans hread
  · cases h
    exact hhas

theorem edits_getYawConvar (h : getYawConvar host s name = some (s', v)) : EditsHere s s' :=
  edits_readOr (fun t => t.viewYaw) h

theorem edits_getPitchConvar (h : getPitchConvar host s name = some (s', v)) : EditsHere s s' :=
  edits_readOr (fun t => t.viewPitch) h

theorem Edits.seq {t u v : Session F} (h : EditsHere s t)
    (h' : EditsHere u v) (hk : Keeps t u)
    (hf : u.playback.currentFrame = t.playback.currentFrame) : EditsHere s v := by
  unfold EditsHere at h'
  rw [hf, h.currentFrame] at h'
  exact (h.trans (hk.edits hf)).trans h'

theorem edits_startPitch (h : startPitch host s = some s') : EditsHere s s' := by
  unfold startPitch at h
  simp only [bind_eq_some, Prod.exists, some.injEq] at h
  obtain ⟨t, v, ht, u, w, hu, rfl⟩ := h
  have hread := (edits_getExistingValue ht).seq (edits_getPitchConvar hu)
    ⟨rfl, rfl, .inl rfl, rfl⟩ rfl
  exact hread.seq .rfl ⟨rfl, rfl, .inl rfl, rfl⟩ rfl

theorem edits_startYaw (h : startYaw host s = some s') : EditsHere s s' := by
  unfold startYaw at h
  simp only [bind_eq_some, Prod.exists, some.injEq] at h
  obtain ⟨t, v, ht, u, w, hu, rfl⟩ := h
  have hread := (edits_getExistingValue ht).seq (edits_getYawConvar hu)
    ⟨rfl, rfl, .inl rfl, rfl⟩ rfl
  exact hread.seq .rfl ⟨rfl, rfl, .inl rfl, rfl⟩ rfl

theorem edits_startStrafe (h : startStrafe host s = some s') : EditsHere s s' := by
  unfold startStrafe at h
  simp only [bind_eq_some, Prod.exists, some.injEq] at h
  obtain ⟨t, v, ht, u, w, hu, x, y, hx, rfl⟩ := h
  have hstrafe := (edits_getExistingValue ht).seq (edits_getExistingValue hu)
    ⟨rfl, rfl, .inl rfl, rfl⟩ rfl
  have hyaw := hstrafe.seq (edits_getYawConvar hx) ⟨rfl, rfl, .inl rfl, rfl⟩ rfl
  exact hyaw.seq .rfl ⟨rfl, rfl, .inl rfl, rfl⟩ rfl

theorem edits_setMouse {E : List Int} (mouse : MouseState) (h : mouse ≠ .shot) :
    Edits E s { s with mouse := mouse } :=
  ⟨⟨fun _ he => he, fun _ _ => rfl, fun _ hs => absurd hs h⟩, rfl⟩

theorem edits_editStrafe [BEq F] (h : editStrafe host env s = some s') : EditsHere s s' := by
  unfold editStrafe at h
  simp only [bind_eq_some, some.injEq] at h
  obtain ⟨t, ht, u, hu, rfl⟩ := h
  have hset := (edits_startStrafe ht).seq (edits_setConvars hu) .rfl rfl
  exact hset.trans (edits_setMouse .strafe nofun)

theorem edits_editSwim [BEq F] (h : editSwim host env s = some s') : EditsHere s s' := by
  unfold editSwim at h
  simp only [bind_eq_some, Prod.exists, some.injEq] at h
  obtain ⟨t, ht, u, v, hu, x, w, hx, y, hy, rfl⟩ := h
  have hstart := (edits_startStrafe ht).seq (edits_getExistingValue hu) .rfl rfl
  have hpitch := hstart.seq (edits_getYawConvar hx) ⟨rfl, rfl, .inl rfl, rfl⟩ rfl
  have hset := hpitch.seq (edits_setConvars hy) ⟨rfl, rfl, .inl rfl, rfl⟩ rfl
  exact hset.trans (edits_setMouse .swim nofun)

theorem edits_editAddShot {frames : Int} (h : editAddShot host s frames = some s') :
    EditsHere s s' := by
  unfold editAddShot at h
  split at h
  · cases h
    exact .rfl
  · next hpos =>
    simp only [bind_eq_some] at h
    obtain ⟨t, ht, hy⟩ := h
    have hmode : Edits [s.playback.currentFrame] s
        { s with mouse := .shot, currentTurnframes := frames } :=
      ⟨⟨fun _ he => he, fun _ _ => rfl, fun _ _ => not_le.mp hpos⟩, rfl⟩
    have hview := (edits_startPitch ht).seq (edits_startYaw hy) .rfl rfl
    exact hmode.trans hview

theorem edits_editSetPitch (h : editSetPitch host s = some s') : EditsHere s s' :=
  (edits_setMouse .pitch nofun).trans (edits_startPitch h)

theorem edits_editSetYaw (h : editSetYaw host s = some s') : EditsHere s s' :=
  (edits_setMouse .yaw nofun).trans (edits_startYaw h)

theorem edits_editSetView (h : editSetView host s = some s') : EditsHere s s' := by
  unfold editSetView at h
  simp only [bind_eq_some] at h
  obtain ⟨t, ht, hy⟩ := h
  have hview := (edits_startPitch ht).seq (edits_startYaw hy) .rfl rfl
  exact (edits_setMouse .mixed nofun).trans hview

end Modes

/-! ## Commands -/

section Commands

variable {E : List Int} {s s' : Session F}

variable {env : HostEnv}

theorem edits_editImpulse {host : Host F} {arg : Str} {used : Bool}
    (h : editImpulse host env s arg = some (s', used)) : EditsHere s s' := by
  unfold editImpulse at h
  simp only [bind_eq_bind] at h
  split at h
  · cases h
    exact .rfl
  · simp only [bind_eq_some_iff, Prod.exists, some.injEq, Prod.mk.injEq] at h
    obtain ⟨t, i, block, hblock, rfl, -⟩ := h
    have hmem : (touchEdited env s).playback.frameOrCurrent (-1) ∈ [s.playback.currentFrame] :=
      mem_singleton.mpr rfl
    exact (edits_touchEdited env).trans (edits_writeBlock hmem hblock fun _ => rfl)

theorem edits_cmdExecuteStringHook [BEq F] {host : Host F} {name : Str} {args : List Str}
    {used : Bool} (h : cmdExecuteStringHook host env s name args = some (s', used)) :
    EditsHere s s' := by
  have hkeep : ∀ {r : Bool}, some (s, r) = some (s', used) → EditsHere s s' := by
    intro r hr
    cases hr
    exact .rfl
  unfold cmdExecuteStringHook at h
  simp only at h
  split at h
  · exact hkeep h
  split at h
  · exact hkeep h
  split at h
  · split at h
    · exact hkeep h
    · simp only [bind_eq_some, some.injEq, Prod.mk.injEq] at h
      obtain ⟨t, ht, rfl, -⟩ := h
      exact edits_setConvar_current ht
  split at h
  · simp only [bind_eq_some, Prod.exists, some.injEq, Prod.mk.injEq] at h
    obtain ⟨t, oldValue, ht, u, hu, rfl, -⟩ := h
    exact (edits_getExistingToggle ht).seq (edits_setToggle hu) .rfl rfl
  · split at h
    · split at h
      · exact edits_editImpulse h
      · exact hkeep h
    · exact hkeep h

theorem edits_editAddEmpty : EditsHere s s.editAddEmpty := by
  unfold editAddEmpty
  split
  · next playback i h =>
    obtain ⟨hbelow, -, hframe⟩ := getBlockForFrame_spec h
    exact ⟨⟨fun _ he => he, fun k hk => hbelow k (hk _ mem_cons_self), fun hs => hs⟩, hframe⟩
  · exact .rfl

theorem effect_applyEdit {ε : Type} {r : Except ε (PlaybackInfo F)}
    (h : ∀ playback, r = .ok playback → ∀ k, (∀ f ∈ E, k ≤ f) →
      blocksBelow k playback.currentScript.blocks = blocksBelow k s.blocks) :
    Effect E s (s.applyEdit r) := by
  unfold applyEdit
  split
  · next playback hr => exact ⟨fun _ he => he, h _ rfl, fun hs => hs⟩
  · exact Keeps.rfl.effect

theorem effect_editShift (host : Host F) (env : HostEnv) (frames : Int) :
    Effect [s.playback.currentFrame, s.playback.currentFrame + frames] s
      (editShift host env s frames) := by
  unfold editShift
  split
  · next playback newFrame hr =>
    have hedit : Effect [s.playback.currentFrame, s.playback.currentFrame + frames] s
        { s with playback := playback } :=
      ⟨fun _ he => he, fun k hk => blocksBelow_editShift hr
        (hk _ mem_cons_self) (hk _ (mem_cons_of_mem _ mem_cons_self)), fun hs => hs⟩
    exact hedit.trans (keeps_genericAdvance host env _ newFrame).effect
  · exact Keeps.rfl.effect

theorem edits_clearToggle (cmd : Str) {minFrame : Int} (h : minFrame ∈ E) (maxFrame : Int) :
    Edits E s (s.clearToggle cmd minFrame maxFrame) := by
  apply edits_withScript
  intro k hk
  rw [blocksBelow_prune (hk _ h), blocksBelow_removeTogglesFromRange (hk _ h)]
  rfl

theorem edits_setToggle_of_mem {t t' : Session F} {cmd : Str} {v : Bool} {frame : Int}
    (hc : t.playback.currentFrame = s.playback.currentFrame)
    (hE : s.playback.frameOrCurrent frame ∈ E) (h : setToggle env t cmd v frame = some t') :
    Edits E t t' := by
  refine (edits_setToggle h).mono ?_
  intro f hf
  rw [mem_singleton.mp hf]
  unfold frameOrCurrent at hE ⊢
  rw [hc]
  exact hE

theorem edits_setShots {frames : List Int} {t t' : Session F}
    (hc : t.playback.currentFrame = s.playback.currentFrame)
    (hE : ∀ i ∈ frames, s.playback.frameOrCurrent i ∈ E ∧ s.playback.frameOrCurrent (i + 1) ∈ E)
    (h : setShots env t frames = some t') : Edits E t t' := by
  refine Edits.foldlM ?_ hc h
  intro i hi u u' hu h
  simp only [bind_eq_some] at h
  obtain ⟨w, hw, h⟩ := h
  have hon := edits_setToggle_of_mem hu (hE i hi).1 hw
  exact hon.trans (edits_setToggle_of_mem (hon.currentFrame.trans hu) (hE i hi).2 h)

theorem edits_removeShot {frames : Int} (h : turnFrame s.playback.currentFrame frames ∈ E)
    (h' : shootFrame s.playback.currentFrame ∈ E) :
    Edits E s (s.withScript (s.playback.currentScript.removeShot s.playback.currentFrame frames)) := by
  apply edits_withScript
  intro k hk
  exact blocksBelow_removeShot _ (hk _ h) (hk _ h')

theorem edits_replaceScript {script : TASScript F} (h : ∀ b ∈ s.blocks, b.frame ∈ E)
    (h' : ∀ b ∈ script.blocks, b.frame ∈ E) : Edits E s (s.withScript script) := by
  apply edits_withScript
  intro k hk
  unfold blocksBelow
  rw [below_eq_nil fun b hb => hk _ (h b hb), below_eq_nil fun b hb => hk _ (h' b hb)]

theorem edits_optimizerAccept (env : HostEnv) (optimized : TASScript F)
    (h : ∀ b ∈ s.blocks.dropWhile (fun b => decide (b.frame < s.playback.currentFrame)), b.frame ∈ E)
    (h' : ∀ b ∈ optimized.blocks, b.frame + s.playback.currentFrame ∈ E) :
    Edits E s (s.optimizerAccept env optimized) := by
  have hscript : ∀ t : Session F, t.playback = s.playback → Edits E t
      (t.withScript (t.playback.currentScript.addScript optimized t.playback.currentFrame)) := by
    intro t ht
    apply edits_withScript
    intro k hk
    unfold Session.blocks
    rw [ht]
    exact blocksBelow_addScript _ _ _ (fun b hb => hk _ (h b hb))
      fun b hb => hk _ (h' b hb)
  have hdrop : Edits E s { s with drag := { s.drag with dragType := .none } } :=
    Keeps.edits ⟨rfl, rfl, .inl rfl, rfl⟩ rfl
  unfold optimizerAccept
  split
  · exact .rfl
  · simp only
    split
    · exact ((hdrop.trans (hscript _ rfl)).trans (edits_touchEdited env)).trans (edits_scriptUpdated _)
    · exact ((hscript s rfl).trans (edits_touchEdited env)).trans (edits_scriptUpdated _)

end Commands

/-! ## Drags -/

section Drags

variable {E : List Int} {s s' : Session F}

/-- The frames of the blocks that a drag moves. -/
def draggedFrames (drag : Drag F) (blocks : List (FrameBlock F)) : List Int :=
  match drag.dragType with
  | .single => (blocks[drag.blockIndex]?).toList.map FrameBlock.frame
  | _ => (blocks.drop drag.blockIndex).map FrameBlock.frame

theorem frame_mem_draggedFrames {drag : Drag F} {blocks : List (FrameBlock F)} {b : FrameBlock F}
    (h : blocks[drag.blockIndex]? = some b) : b.frame ∈ draggedFrames drag blocks := by
  unfold draggedFrames
  split
  · rw [h]
    exact mem_singleton.mpr rfl
  · have hmem : b ∈ blocks.drop drag.blockIndex := by
      apply mem_of_getElem? (i := 0)
      rw [List.getElem?_drop]
      exact h
    exact mem_map_of_mem hmem

theorem frame_mem_draggedFrames_of_stack {drag : Drag F} {blocks : List (FrameBlock F)}
    (hd : drag.dragType = .stack) {b : FrameBlock F} (h : b ∈ blocks.drop drag.blockIndex) :
    b.frame ∈ draggedFrames drag blocks := by
  unfold draggedFrames
  rw [hd]
  exact mem_map_of_mem h

theorem edits_dragFrames (ticks : Int) (h : ∀ f ∈ draggedFrames s.drag s.blocks, f ∈ E)
    (h' : ∀ f ∈ draggedFrames s.drag (s.dragFrames ticks).blocks, f ∈ E) :
    Edits E s (s.withScript (s.dragFrames ticks)) := by
  apply edits_withScript
  intro k hk
  unfold dragFrames at h' ⊢
  cases hd : s.drag.dragType with
  | none => rfl
  | single =>
    simp only [hd] at h' ⊢
    apply blocksBelow_shiftSingleBlock
    · intro b hb
      exact hk _ (h _ (frame_mem_draggedFrames hb))
    · intro b hb
      exact hk _ (h' _ (frame_mem_draggedFrames hb))
  | stack =>
    simp only [hd] at h' ⊢
    apply blocksBelow_shiftBlocks
    · intro b hb
      exact hk _ (h _ (frame_mem_draggedFrames_of_stack hd hb))
    · intro b hb
      exact hk _ (h' _ (frame_mem_draggedFrames_of_stack hd hb))

theorem edits_modifyDragged {g : FrameBlock F → FrameBlock F} (hg : ∀ b, (g b).frame = b.frame)
    (h : ∀ b, s.blocks[s.drag.blockIndex]? = some b → b.frame ∈ E) :
    Edits E s (s.modifyBlock s.drag.blockIndex g) := by
  apply edits_withScript
  intro k hk
  apply blocksBelow_modify hg
  intro b hb
  exact hk _ (h b hb)

theorem edits_setDrag (drag : Drag F) : Edits E s { s with drag := drag } :=
  ⟨⟨fun _ he => he, fun _ _ => rfl, fun h => h⟩, rfl⟩

theorem edits_dragYaw (host : Host F)
    (h : ∀ b, s.blocks[s.drag.blockIndex]? = some b → b.frame ∈ E) : Edits E s (dragYaw host s) := by
  unfold dragYaw
  split
  · refine Edits.trans (t := s.modifyBlock s.drag.blockIndex _) ?_ (edits_setDrag _)
    apply edits_modifyDragged
    · intro b
      rfl
    · exact h
  · exact .rfl

/-- The blocks before and after the movement are all in `E`, so the one whose yaw is turned
is too. -/
theorem edits_dragPitch (ticks : Int) (h : ∀ f ∈ draggedFrames s.drag s.blocks, f ∈ E)
    (h' : ∀ f ∈ draggedFrames s.drag (s.dragFrames ticks).blocks, f ∈ E) :
    Edits E s (s.dragPitch ticks) ∧
      ∀ b, (s.dragPitch ticks).blocks[(s.dragPitch ticks).drag.blockIndex]? = some b →
        b.frame ∈ E := by
  unfold dragPitch
  split
  · exact ⟨(edits_dragFrames ticks h h').trans (edits_setDrag _),
      fun b hb => h' _ (frame_mem_draggedFrames hb)⟩
  · exact ⟨.rfl, fun b hb => h _ (frame_mem_draggedFrames hb)⟩

theorem edits_dragMouseMove (host : Host F) (env : HostEnv) (move : MouseMove)
    (h : ∀ f ∈ draggedFrames s.drag s.blocks, f ∈ E)
    (h' : ∀ f ∈ draggedFrames s.drag
      (s.dragFrames (pitchTicks (Drag.accumulate s.drag move).accumPitch)).blocks, f ∈ E) :
    Edits E s (dragMouseMove host env s move) := by
  unfold dragMouseMove
  split
  · exact .rfl
  · have hdrag := edits_setDrag (E := E) (s := s) (Drag.accumulate s.drag move)
    have hpitch := edits_dragPitch (s := { s with drag := Drag.accumulate s.drag move })
      (pitchTicks (Drag.accumulate s.drag move).accumPitch) h h'
    have hmoved := (hdrag.trans hpitch.1).trans (edits_dragYaw host hpitch.2)
    simp only
    split
    · exact hmoved.trans (edits_touchEdited env)
    · exact hmoved

theorem edits_dragConfirm [BEq F] {host : Host F}
    (hE : ∀ b, s.blocks[s.drag.blockIndex]? = some b → b.frame ∈ E)
    (h : dragConfirm host s = some s') : Edits E s s' := by
  unfold dragConfirm at h
  simp only [bind_eq_some, some.injEq] at h
  obtain ⟨block, hblock, rfl⟩ := h
  have htouch : Edits E s (s.modifyBlock s.drag.blockIndex fun b =>
      { b with convars := b.convars.touch strafeYaw (host.ofInt 0) }) :=
    edits_modifyDragged (fun _ => rfl) hE
  split
  · refine (htouch.trans (u := (s.modifyBlock _ _).modifyBlock s.drag.blockIndex _) ?_).trans
      (edits_setDrag _)
    apply edits_modifyDragged
    · intro b
      rfl
    -- the block that the touched script has at the index is on the frame it was on
    intro b hb
    have hframe := frame_getElem?_modify (l := s.blocks) (i := s.drag.blockIndex)
      (g := fun b => { b with convars := b.convars.touch strafeYaw (host.ofInt 0) })
      (fun _ => rfl) s.drag.blockIndex
    have hb' : ((s.blocks.modify s.drag.blockIndex fun b =>
      { b with convars := b.convars.touch strafeYaw (host.ofInt 0) })[s.drag.blockIndex]?) =
        some b := hb
    rw [hb', hblock] at hframe
    have hbf := some.inj hframe
    rw [hbf]
    exact hE block hblock
  · exact htouch.trans (edits_setDrag _)

theorem edits_dragCancelFrames {script : TASScript F} (h : s.dragCancelFrames = some script)
    (hE : ∀ f ∈ draggedFrames s.drag s.blocks, f ∈ E)
    (hE' : ∀ f ∈ draggedFrames s.drag script.blocks, f ∈ E) (ho : s.drag.originalFrame ∈ E) :
    Edits E s (s.withScript script) := by
  apply edits_withScript
  intro k hk
  unfold dragCancelFrames at h
  simp only [bind_eq_some] at h
  obtain ⟨block, hblock, h⟩ := h
  cases hd : s.drag.dragType with
  | none =>
    simp only [hd, some.injEq] at h
    rw [← h]
    rfl
  | single =>
    simp only [hd, some.injEq] at h
    rw [← h]
    apply below_modify
    intro b hb
    exact ⟨hk _ (hE _ (frame_mem_draggedFrames hb)), hk _ ho⟩
  | stack =>
    simp only [hd, some.injEq] at h
    rw [← h]
    apply blocksBelow_shiftBlocks
    · intro b hb
      exact hk _ (hE _ (frame_mem_draggedFrames_of_stack hd hb))
    · intro b hb
      rw [h] at hb
      exact hk _ (hE' _ (frame_mem_draggedFrames_of_stack hd hb))

theorem edits_dragCancel {env : HostEnv} (h : dragCancel env s = some s')
    (hE : ∀ f ∈ draggedFrames s.drag s.blocks, f ∈ E)
    (hE' : ∀ script ∈ s.dragCancelFrames, ∀ f ∈ draggedFrames s.drag script.blocks, f ∈ E)
    (ho : s.drag.originalFrame ∈ E) : Edits E s s' := by
  unfold dragCancel at h
  simp only [bind_eq_some, some.injEq] at h
  obtain ⟨script, hscript, rfl⟩ := h
  have hframes := edits_dragCancelFrames (s := touchEdited env s) hscript hE
    (hE' script hscript) ho
  have hyaw : Edits E (touchEdited env s) ((touchEdited env s).withScript
      (if s.drag.originalHadStrafeYaw = true then
        script.addCvar strafeYaw s.drag.originalStrafeyaw s.drag.originalFrame
      else script.removeCvarsFromRange strafeYaw s.drag.originalFrame s.drag.originalFrame)) := by
    apply edits_withScript
    intro k hk
    rw [← hframes.below k hk]
    split
    · exact blocksBelow_addCvar script _ _ (hk _ ho)
    · exact blocksBelow_removeCvarsFromRange (hk _ ho) _ _
  exact ((edits_touchEdited env).trans hyaw).trans (edits_setDrag _)

theorem keeps_dragStart {host : Host F} {env : HostEnv} {dragType : DragType} {index : Option ℕ}
    (h : dragStart host env s dragType index = some s') : Keeps s s' := by
  unfold dragStart at h
  split at h
  · cases h
    exact .rfl
  · split at h
    · cases h
      exact .rfl
    · unfold selectDragIndex at h
      simp only [bind_eq_some, some.injEq] at h
      obtain ⟨t, ⟨b, hb, rfl⟩, rfl⟩ := h
      exact ⟨rfl, rfl, .inl rfl, rfl⟩

end Drags

end TASQuake.Session
