import TASQuake.Analysis.EditEffects
import TASQuake.Analysis.SavestateNumbers

/-!
# When savestates match the script

A savestate made at frame `k` is coherent as long as the blocks before `k` are still those of the
script.  In a run in which every operation leaves no savestate live after a frame that it touched
(`editedFrames`, `Covered`), every live savestate is coherent.  `Cmd_TAS_Edit_Shift` violates this:
it moves a block to an earlier frame and keeps the savestates in between.
-/

namespace TASQuake.Analysis.SavestateCoherence

open Lib Session FrameBlock TASScript Keeps PlaybackInfo Option List

variable {F : Type}

/-! ## Operations -/

/-- What the user, the engine and the frame loop can do to a session. -/
inductive Op (F : Type) where
  | frame (env : HostEnv)
  | savestate (env : HostEnv)
  | clearSavestates
  | scriptPlay (env : HostEnv)
  | scriptStop
  | scriptSkip (env : HostEnv) (frame : Int)
  | scriptSkipBlock (env : HostEnv) (block : Int)
  | scriptAdvance (env : HostEnv) (frames : Int)
  | scriptAdvanceBlock (env : HostEnv) (count : Int)
  | executeString (env : HostEnv) (name : Str) (args : List Str)
  | setConvar (env : HostEnv) (name : Str) (value : F) (frame : Int)
  | setToggle (env : HostEnv) (cmd : Str) (value : Bool) (frame : Int)
  | editStrafe (env : HostEnv)
  | editSwim (env : HostEnv)
  | editAddShot (frames : Int)
  | editSetPitch
  | editSetYaw
  | editSetView
  | editShrink (env : HostEnv)
  | editDelete (env : HostEnv)
  | editShift (env : HostEnv) (frames : Int)
  | editShiftStack (env : HostEnv) (frames : Int)
  | editPrune (range : Option (Int × Int))
  | editAddEmpty
  | editRemoveShot (env : HostEnv) (frames : Int)
  | editShots (env : HostEnv) (count : Int) (interval : ShotInterval) (draws : Draws)
  | editRandomToggle (env : HostEnv) (toggle : Str) (minFrame maxFrame : Int) (draws : Draws)
  | confirm (env : HostEnv)
  | cancel (env : HostEnv)
  | revert (env : HostEnv)
  | dragStart (env : HostEnv) (dragType : DragType) (index : Option ℕ)
  | dragMove (env : HostEnv) (move : MouseMove)
  | scriptLoad (env : HostEnv) (loaded : TASScript F) (result : Bool)
  | scriptInit (fileName map version : Str) (difficulty : Int)
  | optimizerAccept (env : HostEnv) (optimized : TASScript F)
  /-- the engine changes the game state, turns the view and executes queued commands -/
  | engine (gameState : GameState) (playing : Bool) (viewPitch viewYaw : F)
      (afterframes : List AfterFrames)

variable [BEq F]

/-- The effect of an operation; `none` where the code reads through a null pointer. -/
def step (host : Host F) (s : Session F) : Op F → Option (Session F)
  | .frame env => hostFrameHook host env s
  | .savestate env => some (s.cmdSavestate env)
  | .clearSavestates => some { s with savestates := s.savestates.clear }
  | .scriptPlay env => some (scriptPlay host env s)
  | .scriptStop => some s.scriptStop
  | .scriptSkip env frame => some (scriptSkip host env s frame)
  | .scriptSkipBlock env block => some (scriptSkipBlock host env s block)
  | .scriptAdvance env frames => some (scriptAdvance host env s frames)
  | .scriptAdvanceBlock env count => some (scriptAdvanceBlock host env s count)
  | .executeString env name args => (cmdExecuteStringHook host env s name args).map Prod.fst
  | .setConvar env name value frame => setConvar host env s name value frame
  | .setToggle env cmd value frame => setToggle env s cmd value frame
  | .editStrafe env => editStrafe host env s
  | .editSwim env => editSwim host env s
  | .editAddShot frames => editAddShot host s frames
  | .editSetPitch => editSetPitch host s
  | .editSetYaw => editSetYaw host s
  | .editSetView => editSetView host s
  | .editShrink env => some (s.applyEdit (s.playback.editShrink env.now))
  | .editDelete env => some (s.applyEdit (s.playback.editDelete env.now))
  | .editShift env frames => some (editShift host env s frames)
  | .editShiftStack env frames => some (s.applyEdit (s.playback.editShiftStack env.now frames))
  | .editPrune range => some (s.editPrune range)
  | .editAddEmpty => some s.editAddEmpty
  | .editRemoveShot env frames => some (s.editRemoveShot env frames)
  | .editShots env count interval draws => editShots env s count interval draws
  | .editRandomToggle env toggle minFrame maxFrame draws =>
    editRandomToggle env s toggle minFrame maxFrame draws
  | .confirm env => confirm host env s
  | .cancel env => cancel host env s
  | .revert env => revert host env s
  | .dragStart env dragType index => dragStart host env s dragType index
  | .dragMove env move => some (dragMouseMove host env s move)
  | .scriptLoad env loaded result => some (s.cmdScriptLoad env loaded result)
  | .scriptInit fileName map version difficulty => some (s.scriptInit fileName map version difficulty)
  | .optimizerAccept env optimized => some (s.optimizerAccept env optimized)
  | .engine gameState playing viewPitch viewYaw afterframes =>
    some { s with
      gameState := gameState
      playing := playing
      viewPitch := viewPitch
      viewYaw := viewYaw
      afterframes := afterframes }

/-! ## Which frames an operation touches -/

/-- The frames from which `RemoveShot` clears. -/
def shotFrames (s : Session F) (turnFrames : Int) : List Int :=
  [turnFrame s.playback.currentFrame turnFrames, shootFrame s.playback.currentFrame]

/-- The frames that `tas_edit_shots` touches, given the integers drawn. -/
def shotsFrames (s : Session F) (minFrame : Int) (integers : List Int) : List Int :=
  minFrame :: integers.flatMap fun i =>
    [s.playback.frameOrCurrent i, s.playback.frameOrCurrent (i + 1)]

/-- The frames that the mouse edits: in the shot mode `AddShot` clears from two frames before
the turn on. -/
def mouseFrames (s : Session F) : List Int :=
  match s.mouse with
  | .shot => [turnFrame s.playback.currentFrame s.currentTurnframes - clearRange]
  | _ => [s.playback.currentFrame]

/-- The frames that `tas_cancel` touches. -/
def cancelFrames (env : HostEnv) (s : Session F) : List Int :=
  if s.isDragging env then
    draggedFrames s.drag s.blocks ++
      (s.dragCancelFrames.toList.flatMap fun script => draggedFrames s.drag script.blocks) ++
      [s.drag.originalFrame]
  else
    match s.mouse with
    | .shot => shotFrames s s.currentTurnframes
    | _ => [s.playback.currentFrame]

/-- The frames that an operation touches: those of the blocks that it inserts, removes, moves
or rewrites, or a frame before them. -/
def editedFrames (s : Session F) : Op F → List Int
  | .frame _ => mouseFrames s
  | .setConvar _ _ _ frame => [s.playback.frameOrCurrent frame, s.playback.currentFrame]
  | .setToggle _ _ _ frame => [s.playback.frameOrCurrent frame]
  | .executeString .. | .editStrafe _ | .editSwim _ | .editAddShot _ | .editSetPitch | .editSetYaw
  | .editSetView | .editDelete _ | .editAddEmpty | .revert _ => [s.playback.currentFrame]
  | .editShrink _ => (s.blocks.drop s.playback.shrinkSize).map frame
  | .editShift _ frames => [s.playback.currentFrame, s.playback.currentFrame + frames]
  | .editShiftStack _ frames =>
    s.playback.stackToShift.map frame ++
      s.playback.stackToShift.map fun b => b.frame + frames
  | .editPrune (some (minFrame, _)) => [minFrame]
  | .editPrune none => [lowestFrame]
  | .editRemoveShot _ frames => shotFrames s frames
  | .editShots env count interval draws =>
    let (minFrame, maxFrame) := interval.bounds s.playback.currentFrame
    match generateRandomIntegers count minFrame maxFrame env.weaponDelay draws with
    | .ok (integers, _) => shotsFrames s minFrame integers
    | .error _ => []
  | .editRandomToggle _ _ minFrame maxFrame draws =>
    match generateRandomIntegers 1 minFrame maxFrame 1 draws with
    | .ok (integers, _) => shotsFrames s minFrame integers
    | .error _ => []
  | .confirm _ => (s.blocks[s.drag.blockIndex]?).toList.map frame
  | .cancel env => cancelFrames env s
  | .dragMove _ move =>
    let ticks := pitchTicks (Drag.accumulate s.drag move).accumPitch
    draggedFrames s.drag s.blocks ++ draggedFrames s.drag (s.dragFrames ticks).blocks
  | .scriptLoad _ loaded _ => s.blocks.map frame ++ loaded.blocks.map frame
  | .scriptInit fileName map version difficulty =>
    s.blocks.map frame ++
      ((initialScript fileName map version difficulty : TASScript F).blocks.map frame)
  | .optimizerAccept _ optimized =>
    (s.blocks.dropWhile fun b => decide (b.frame < s.playback.currentFrame)).map frame ++
      optimized.blocks.map fun b => b.frame + s.playback.currentFrame
  | _ => []

/-! ## Coherence -/

/-- Every live savestate is coherent: the blocks before its key are those of the script at its
creation. -/
def Coherent (s : Session F) : Prop :=
  ∀ e ∈ s.entries, blocksBelow e.1 s.blocks = blocksBelow e.1 e.2.snapshot

/-- The condition on an operation: if it changes the script, it leaves no savestate live
whose key is after a frame that it touches. -/
def Covered (host : Host F) (s : Session F) (op : Op F) : Prop :=
  ∀ s', step host s op = some s' → s'.blocks = s.blocks ∨
    ∀ e ∈ s'.entries, ∀ f ∈ editedFrames s op, e.1 ≤ f

omit [BEq F] in
instance Coherent.decidable [DecidableEq F] (s : Session F) : Decidable (Coherent s) :=
  inferInstanceAs (Decidable (∀ e ∈ s.entries, _))

instance Covered.decidable [DecidableEq F] (host : Host F) (s : Session F) (op : Op F) :
    Decidable (Covered host s op) :=
  match h : step host s op with
  | none => .isTrue fun _ hs => nomatch h.symm.trans hs
  | some t =>
    decidable_of_iff (t.blocks = s.blocks ∨ ∀ e ∈ t.entries, ∀ f ∈ editedFrames s op, e.1 ≤ f)
      ⟨fun hc _ hs => some.inj (h.symm.trans hs) ▸ hc, fun hc => hc t h⟩

/-! ## Every operation is a savestate, if any, and then edits -/

/-- The part of an operation that makes savestates: those that it adds hold the script. -/
structure Saves (s s' : Session F) : Prop where
  playback : s'.playback = s.playback
  mouse : s'.mouse = s.mouse
  turnframes : s'.currentTurnframes = s.currentTurnframes
  entries : ∀ e ∈ s'.entries, e ∈ s.entries ∨ e.2.snapshot = s.blocks

omit [BEq F] in
theorem Saves.rfl {s : Session F} : Saves s s := ⟨Eq.refl _, Eq.refl _, Eq.refl _, fun _ => Or.inl⟩

omit [BEq F] in
theorem mem_createSavestate {m : Savestates (List (FrameBlock F))} {can force : Bool}
    {mapName : Str} {snapshot : List (FrameBlock F)} {frame : Int}
    {e : Int × Savestate (List (FrameBlock F))}
    (he : e ∈ (m.createSavestate can mapName snapshot frame force).savestateMap.entries) :
    e ∈ m.savestateMap.entries ∨ e.2.snapshot = snapshot := by
  rcases SavestateNumbers.createSavestate_cases m can mapName snapshot frame force with heq | heq
  · exact .inl (heq ▸ he)
  · rw [heq] at he
    rcases SortedMap.mem_put.mp he with rfl | ⟨he, -⟩
    · exact .inr rfl
    · exact .inl he

omit [BEq F] in
theorem saves_cmdSavestate (env : HostEnv) (s : Session F) : Saves s (s.cmdSavestate env) :=
  ⟨rfl, rfl, rfl, fun _ he => mem_createSavestate he⟩

omit [BEq F] in
theorem saves_savestateFrameHook (env : HostEnv) (s : Session F) :
    Saves s (savestateFrameHook env s) := by
  refine ⟨rfl, rfl, rfl, ?_⟩
  intro e he
  have he' : e ∈ (s.savestates.frameHook env s.playing s.blocks s.playback.currentFrame
    s.playback.pauseFrame).savestateMap.entries := he
  unfold Savestates.frameHook at he'
  simp only at he'
  split at he'
  · rcases mem_createSavestate he' with he' | hsnap
    · exact .inl he'
    · exact .inr hsnap
  · exact .inl he'

theorem effect_frame {host : Host F} {env : HostEnv} {s s' : Session F} (hmode : ShotMode s)
    (h : hostFrameHook host env s = some s') :
    ∃ t, Saves s t ∧ Effect (editedFrames s (.frame env)) t s' := by
  unfold hostFrameHook at h
  split at h
  · cases h
    exact ⟨s, .rfl, rfl.effect⟩
  · split at h
    · cases h
      refine ⟨s, .rfl, effect ?_⟩
      have hqueue : Keeps s { s with runQueued := false } := ⟨rfl, rfl, .inl rfl, rfl⟩
      exact hqueue.trans (keeps_runScript host env _ _ _ _)
    · simp only [bind_eq_some, some.injEq] at h
      obtain ⟨t, ht, rfl⟩ := h
      refine ⟨_, saves_savestateFrameHook env s, ?_⟩
      refine Effect.trans ?_ (keeps_playOrPause host env t).effect
      unfold mouseHook at ht
      split at ht
      · by_cases hm : (savestateFrameHook env s).mouse = .shot
        · have hframes : mouseFrames s = [turnFrame s.playback.currentFrame
              s.currentTurnframes - clearRange] := by
            unfold mouseFrames
            have hm' : s.mouse = .shot := hm
            rw [hm']
          unfold applyMouseStuff at ht
          rw [hm] at ht
          cases ht
          show Effect (mouseFrames s) _ _
          rw [hframes]
          exact (edits_applyShot (s := savestateFrameHook env s) env (hmode hm)).toEffect
        · have hframes : mouseFrames s = [s.playback.currentFrame] := by
            unfold mouseFrames
            have hm' := hm
            split
            · contradiction
            · rfl
          show Effect (mouseFrames s) _ _
          rw [hframes]
          exact (edits_applyMouseStuff hm ht).toEffect
      · cases ht
        exact rfl.effect

/-! ## The other operations -/

section Operations

variable {host : Host F} {env : HostEnv} {s s' : Session F}

theorem effect_confirm (h : confirm host env s = some s') :
    Effect (editedFrames s (.confirm env)) s s' := by
  unfold confirm at h
  split at h
  · apply Edits.toEffect
    apply edits_dragConfirm ?_ h
    intro b hb
    unfold editedFrames
    rw [hb]
    exact mem_singleton.mpr rfl
  · have hlock : ∀ t : Session F, Keeps t { t with mouse := .locked } :=
      fun t => ⟨rfl, rfl, .inr rfl, rfl⟩
    split at h
    · cases h
      exact rfl.effect
    · cases h
      exact ((keeps_runScript host env s _ true true).trans (hlock _)).effect
    · cases h
      exact (hlock s).effect

theorem effect_cancelMode (h : cancelMode host env s = some s') :
    Effect (match s.mouse with
      | .shot => shotFrames s s.currentTurnframes
      | _ => [s.playback.currentFrame]) s s' := by
  unfold cancelMode at h
  cases hm : s.mouse with
  | locked =>
    simp only [hm, some.injEq] at h
    rw [← h]
    exact rfl.effect
  | shot =>
    simp only [hm, some.injEq] at h
    rw [← h]
    exact (edits_removeShot mem_cons_self
      (mem_cons_of_mem _ mem_cons_self)).toEffect
  | _ =>
    simp only [hm] at h
    exact (edits_setConvars h).toEffect

theorem effect_cancel (h : cancel host env s = some s') : Effect (cancelFrames env s) s s' := by
  unfold cancel at h
  unfold cancelFrames
  split at h
  · next hdrag =>
    rw [if_pos hdrag]
    apply Edits.toEffect
    apply edits_dragCancel h
    · intro f hf
      exact mem_append_left _ (mem_append_left _ hf)
    · intro script hscript f hf
      refine mem_append_left _ (mem_append_right _ ?_)
      exact mem_flatMap.mpr ⟨script, mem_toList.mpr hscript, hf⟩
    · exact mem_append_right _ (mem_singleton.mpr rfl)
  · next hdrag =>
    rw [if_neg hdrag]
    simp only [bind_eq_some, some.injEq] at h
    obtain ⟨t, ht, rfl⟩ := h
    exact (effect_cancelMode ht).trans (edits_setMouse .locked nofun).toEffect

theorem effect_revert (h : revert host env s = some s') :
    Effect [s.playback.currentFrame] s s' := by
  unfold revert at h
  simp only [bind_eq_some, some.injEq] at h
  obtain ⟨t, ht, rfl⟩ := h
  exact (edits_returnStacked ht).toEffect.trans (edits_setMouse .locked nofun).toEffect

omit [BEq F] in
theorem effect_editShots {count : Int} {interval : ShotInterval} {draws : Draws}
    (h : editShots env s count interval draws = some s') :
    Effect (editedFrames s (.editShots env count interval draws)) s s' := by
  have hkeep : ∀ {E : List Int}, some s = some s' → Effect E s s' := by
    intro E hs
    cases hs
    exact rfl.effect
  unfold editShots at h
  unfold editedFrames
  simp only at h ⊢
  split at h
  · exact hkeep h
  split at h
  · exact hkeep h
  split at h
  · exact hkeep h
  split at h
  · exact hkeep h
  · next integers rest hgen =>
    rw [hgen]
    have hclear := edits_clearToggle (s := s) (E := shotsFrames s
      (interval.bounds s.playback.currentFrame).1 integers) (str "attack") mem_cons_self
      (interval.bounds s.playback.currentFrame).2
    have hset := edits_setShots (s := s) (E := shotsFrames s
      (interval.bounds s.playback.currentFrame).1 integers) hclear.currentFrame ?_ h
    · exact (hclear.trans hset).toEffect
    · intro i hi
      constructor
      · exact mem_cons_of_mem _ (mem_flatMap.mpr ⟨i, hi, mem_cons_self⟩)
      · exact mem_cons_of_mem _ (mem_flatMap.mpr
          ⟨i, hi, mem_cons_of_mem _ mem_cons_self⟩)

omit [BEq F] in
theorem effect_editRandomToggle {toggle : Str} {minFrame maxFrame : Int} {draws : Draws}
    (h : editRandomToggle env s toggle minFrame maxFrame draws = some s') :
    Effect (editedFrames s (.editRandomToggle env toggle minFrame maxFrame draws)) s s' := by
  have hkeep : ∀ {E : List Int}, some s = some s' → Effect E s s' := by
    intro E hs
    cases hs
    exact rfl.effect
  unfold editRandomToggle at h
  unfold editedFrames
  split at h
  · exact hkeep h
  split at h
  · exact hkeep h
  split at h
  · exact hkeep h
  split at h
  · exact hkeep h
  · next integers rest hgen =>
    simp only [hgen]
    simp only [bind_eq_some] at h
    obtain ⟨frame, hframe, h⟩ := h
    have hclear := edits_clearToggle (s := s) (E := shotsFrames s minFrame integers) toggle
      mem_cons_self maxFrame
    have hset := edits_setToggle_of_mem (s := s) (E := shotsFrames s minFrame integers)
      hclear.currentFrame ?_ h
    · exact (hclear.trans hset).toEffect
    · exact mem_cons_of_mem _ (mem_flatMap.mpr
        ⟨frame, mem_of_head? hframe, mem_cons_self⟩)

end Operations

/-- Whatever the operation does to savestates and script, it does by making savestates first
and then editing at the frames that `editedFrames` names. -/
theorem step_effect {host : Host F} {s s' : Session F} {op : Op F} (hmode : ShotMode s)
    (h : step host s op = some s') :
    ∃ t, Saves s t ∧ Effect (editedFrames s op) t s' := by
  have hpure : Effect (editedFrames s op) s s' → ∃ t, Saves s t ∧ Effect (editedFrames s op) t s' :=
    fun heff => ⟨s, .rfl, heff⟩
  cases op with
  | frame env => exact effect_frame hmode h
  | savestate env =>
    cases h
    exact ⟨_, saves_cmdSavestate env s, rfl.effect⟩
  | clearSavestates =>
    cases h
    exact hpure ⟨nofun, fun _ _ => rfl, fun hs => hs⟩
  | scriptPlay env =>
    cases h
    exact hpure (keeps_runScript host env s _ _ _).effect
  | scriptStop =>
    cases h
    exact hpure (effect ⟨rfl, rfl, .inl rfl, rfl⟩)
  | scriptSkip env frame =>
    cases h
    exact hpure (keeps_runScript host env s _ _ _).effect
  | scriptSkipBlock env block =>
    cases h
    exact hpure (keeps_scriptSkipBlock host env s block).effect
  | scriptAdvance env frames =>
    cases h
    exact hpure (keeps_scriptAdvance host env s frames).effect
  | scriptAdvanceBlock env count =>
    cases h
    exact hpure (keeps_scriptAdvanceBlock host env s count).effect
  | executeString env name args =>
    obtain ⟨⟨t, used⟩, ht, rfl⟩ := map_eq_some_iff.mp h
    exact hpure (edits_cmdExecuteStringHook ht).toEffect
  | setConvar env name value frame => exact hpure (edits_setConvar h).toEffect
  | setToggle env cmd value frame => exact hpure (edits_setToggle h).toEffect
  | editStrafe env => exact hpure (edits_editStrafe h).toEffect
  | editSwim env => exact hpure (edits_editSwim h).toEffect
  | editAddShot frames => exact hpure (edits_editAddShot h).toEffect
  | editSetPitch => exact hpure (edits_editSetPitch h).toEffect
  | editSetYaw => exact hpure (edits_editSetYaw h).toEffect
  | editSetView => exact hpure (edits_editSetView h).toEffect
  | editShrink env =>
    cases h
    refine hpure (effect_applyEdit ?_)
    intro playback hr k hk
    exact blocksBelow_editShrink hr fun b hb => hk _ (mem_map_of_mem hb)
  | editDelete env =>
    cases h
    refine hpure (effect_applyEdit ?_)
    intro playback hr k hk
    exact blocksBelow_editDelete hr (hk _ mem_cons_self)
  | editShift env frames =>
    cases h
    exact hpure (effect_editShift host env frames)
  | editShiftStack env frames =>
    cases h
    refine hpure (effect_applyEdit ?_)
    intro playback hr k hk
    apply blocksBelow_editShiftStack hr
    · intro b hb
      exact hk _ (mem_append_left _ (mem_map_of_mem hb))
    · intro b hb
      exact hk _ (mem_append_right _ (mem_map_of_mem hb))
  | editPrune range =>
    cases h
    cases range with
    | none =>
      refine hpure (edits_withScript ?_).toEffect
      intro k hk
      exact blocksBelow_pruneFrom (hk _ mem_cons_self)
    | some range =>
      refine hpure (edits_withScript ?_).toEffect
      intro k hk
      exact blocksBelow_prune (hk _ mem_cons_self) _
  | editAddEmpty =>
    cases h
    exact hpure edits_editAddEmpty.toEffect
  | editRemoveShot env frames =>
    cases h
    apply hpure
    unfold editRemoveShot
    split
    · exact rfl.effect
    · have hremove : Edits (editedFrames s (.editRemoveShot env frames)) s _ :=
        edits_removeShot mem_cons_self (mem_cons_of_mem _ mem_cons_self)
      exact (hremove.trans (edits_touchEdited env)).toEffect
  | editShots env count interval draws => exact hpure (effect_editShots h)
  | editRandomToggle env toggle minFrame maxFrame draws => exact hpure (effect_editRandomToggle h)
  | confirm env => exact hpure (effect_confirm h)
  | cancel env => exact hpure (effect_cancel h)
  | revert env => exact hpure (effect_revert h)
  | dragStart env dragType index => exact hpure (keeps_dragStart h).effect
  | dragMove env move =>
    cases h
    refine hpure (edits_dragMouseMove host env move ?_ ?_).toEffect
    · intro f hf
      exact mem_append_left _ hf
    · intro f hf
      exact mem_append_right _ hf
  | scriptLoad env loaded result =>
    cases h
    have hreplace : Edits (editedFrames s (.scriptLoad env loaded result)) (s.scriptUpdated 0)
        ((s.scriptUpdated 0).withScript loaded) :=
      edits_replaceScript (fun b hb => mem_append_left _ (mem_map_of_mem hb))
        fun b hb => mem_append_right _ (mem_map_of_mem hb)
    have hload := ((edits_scriptUpdated 0).trans hreplace).trans (edits_touchEdited env)
    apply hpure
    unfold cmdScriptLoad
    split
    · exact hload.toEffect.trans (effect ⟨rfl, rfl, .inl rfl, rfl⟩)
    · exact hload.toEffect
  | scriptInit fileName map version difficulty =>
    cases h
    have hreplace : Edits (editedFrames s (.scriptInit fileName map version difficulty)) s
        (s.withScript (initialScript fileName map version difficulty)) :=
      edits_replaceScript (fun b hb => mem_append_left _ (mem_map_of_mem hb))
        fun b hb => mem_append_right _ (mem_map_of_mem hb)
    exact hpure (hreplace.trans (edits_scriptUpdated 0)).toEffect
  | optimizerAccept env optimized =>
    cases h
    refine hpure (edits_optimizerAccept env optimized ?_ ?_).toEffect
    · intro b hb
      exact mem_append_left _ (mem_map_of_mem hb)
    · intro b hb
      exact mem_append_right _ (mem_map_of_mem hb)
  | engine gameState playing viewPitch viewYaw afterframes =>
    cases h
    exact hpure (effect ⟨rfl, rfl, .inl rfl, rfl⟩)

/-! ## Runs -/

/-- The invariant of covered runs. -/
structure Inv (s : Session F) : Prop where
  coherent : Coherent s
  shotMode : ShotMode s

omit [BEq F] in
theorem inv_init (host : Host F) : Inv (Session.init host) :=
  ⟨fun _ he => absurd he not_mem_nil, fun h => nomatch h⟩

omit [BEq F] in
theorem Inv.saves {s t : Session F} (h : Inv s) (hs : Saves s t) : Inv t where
  coherent e he := by
    have hb : t.blocks = s.blocks := congrArg (fun p => p.currentScript.blocks) hs.playback
    rw [hb]
    rcases hs.entries e he with he | hsnap
    · exact h.coherent e he
    · rw [hsnap]
  shotMode hshot := by
    rw [hs.turnframes]
    exact h.shotMode (hs.mouse.symm.trans hshot)

theorem Inv.step {host : Host F} {s s' : Session F} {op : Op F} (h : Inv s)
    (hcov : Covered host s op) (hs : step host s op = some s') : Inv s' := by
  obtain ⟨t, hsave, heff⟩ := step_effect h.shotMode hs
  have ht := h.saves hsave
  have hb : t.blocks = s.blocks := congrArg (fun p => p.currentScript.blocks) hsave.playback
  refine ⟨?_, heff.shotMode ht.shotMode⟩
  intro e he
  have hold := ht.coherent e (heff.entries e he)
  rcases hcov s' hs with hsame | hafter
  · rw [hsame, ← hb]
    exact hold
  · rw [heff.below e.1 fun f hf => hafter e he f hf]
    exact hold

end TASQuake.Analysis.SavestateCoherence
