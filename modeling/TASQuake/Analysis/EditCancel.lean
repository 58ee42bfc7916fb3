import TASQuake.Analysis.ModeCancel
import TASQuake.Analysis.ShotCancel

/-!
# Cancelling a mouse mode

After a mouse mode is entered and cancelled, is the same in effect on every frame as before?  In the
modes for the view it is.  The strafing modes remember `tas_strafe` as an integer, the swimming mode
does not remember `tas_strafe_type`, and the mode for a shot does not remember what `AddShot` and
`RemoveShot` clear.
-/

namespace TASQuake.Analysis.EditCancel

open Lib Session TASScript FrameBlock OrderedMap List

variable {F : Type}

/-! ## The mode for a shot -/

section Shot

variable {host : Host F} {c n : Int} {s : Session F} {l : List (FrameBlock F)}

/-- The first blocks at or after the frames of a shot carry its values, so that `AddShot` sees no
change. -/
structure ShotSeen [BEq F] (blocks : List (FrameBlock F)) (frame turnFrames : Int) (pitch yaw : F) :
    Prop where
  turned : ∃ b ∈ blocks.find? fun b => decide (turnFrame frame turnFrames ≤ b.frame),
    b.hasCvarValue (str "tas_view_pitch") pitch = true ∧
      b.hasCvarValue (str "tas_view_yaw") yaw = true
  pressed : ∃ b ∈ blocks.find? fun b => decide (shootFrame frame ≤ b.frame),
    b.hasToggleValue (str "attack") true = true
  released : ∃ b ∈ blocks.find? fun b => decide (shootOffFrame frame ≤ b.frame),
    b.hasToggleValue (str "attack") false = true

variable {pitch yaw : F} {script : TASScript F}

theorem shotChangeDetected_eq_false [BEq F] :
    script.shotChangeDetected pitch yaw c n = false ↔ ShotSeen script.blocks c n pitch yaw := by
  unfold shotChangeDetected
  rw [getFrameblock_eq_find?, getFrameblock_eq_find?, getFrameblock_eq_find?]
  simp only [Bool.or_eq_false_iff, Bool.not_eq_false', Option.any_eq_true, Bool.and_eq_true]
  constructor
  · rintro ⟨⟨hturn, hpress⟩, hrelease⟩
    exact ⟨hturn, hpress, hrelease⟩
  · rintro ⟨hturn, hpress, hrelease⟩
    exact ⟨⟨hturn, hpress⟩, hrelease⟩

/-- The editor is in the mode for a shot. -/
structure InShotMode (c n : Int) (s : Session F) : Prop where
  mouse : s.mouse = .shot
  turnframes : s.currentTurnframes = n
  currentFrame : s.playback.currentFrame = c
  drag : s.drag.dragType = .none

theorem update_shot [BEq F] (h : InShotMode c n s) (host : Host F) (u : MouseUpdate F) :
    ∃ s', update host s u = some s' ∧ InShotMode c n s' ∧
      s'.blocks = (s.playback.currentScript.addShot u.pitch u.yaw c n).1.blocks := by
  obtain ⟨hmouse, rfl, rfl, hdrag⟩ := h
  have hupdate : update host s u =
      some (applyShot u.env { s with viewPitch := u.pitch, viewYaw := u.yaw }) := by
    unfold update applyMouseStuff
    dsimp only
    rw [hmouse]
  refine ⟨_, hupdate, ?_⟩
  unfold applyShot
  dsimp only
  split
  · exact ⟨⟨hmouse, rfl, rfl, hdrag⟩, rfl⟩
  · next hsame =>
    refine ⟨⟨hmouse, rfl, rfl, hdrag⟩, ?_⟩
    unfold addShot at hsame ⊢
    split at hsame
    · exact absurd rfl hsame
    · next hseen =>
      rw [if_neg hseen]
      rfl

/-- `AddShot` has changed the script since the mode was entered. -/
structure Touched (c n : Int) (l l' : List (FrameBlock F)) : Prop where
  core_eq : core (viewWindow c n) (attackWindow c) l' = core (viewWindow c n) (attackWindow c) l
  clean : Clean (fun f => viewWindow c n f && !viewShot c n f)
    (fun f => attackWindow c f && !attackShot c f) l'

theorem touched_addShot [BEq F] (hn : 0 < n) (script : TASScript F)
    (hseen : ¬ ShotSeen script.blocks c n pitch yaw) :
    Touched c n script.blocks (script.addShot pitch yaw c n).1.blocks := by
  have hturn := turnFrame_le_shootFrame c hn
  refine ⟨core_addShot hturn script pitch yaw, clean_addShot hturn script ?_⟩
  rw [← shotChangeDetected_eq_false] at hseen
  simpa using hseen

theorem addShot_of_seen [BEq F] (hseen : ShotSeen script.blocks c n pitch yaw) :
    (script.addShot pitch yaw c n).1 = script := by
  unfold addShot
  rw [shotChangeDetected_eq_false.mpr hseen]
  rfl

theorem Touched.addShot [BEq F] (h : Touched c n l script.blocks) (hn : 0 < n) (pitch yaw : F) :
    Touched c n l (script.addShot pitch yaw c n).1.blocks := by
  by_cases hseen : ShotSeen script.blocks c n pitch yaw
  · rw [addShot_of_seen hseen]
    exact h
  · obtain ⟨hcore, hclean⟩ := touched_addShot hn script hseen
    exact ⟨hcore.trans h.core_eq, hclean⟩

theorem Touched.updates [BEq F] (h : Touched c n l s.blocks) (hmode : InShotMode c n s)
    (hn : 0 < n) (host : Host F) (updates : List (MouseUpdate F)) :
    ∃ s', updates.foldlM (update host) s = some s' ∧ InShotMode c n s' ∧
      Touched c n l s'.blocks := by
  induction updates generalizing s with
  | nil => exact ⟨s, rfl, hmode, h⟩
  | cons u updates ih =>
    obtain ⟨s₁, hstep, hmode₁, hblocks⟩ := update_shot hmode host u
    have h₁ : Touched c n l s₁.blocks := by
      rw [hblocks]
      exact h.addShot hn u.pitch u.yaw
    obtain ⟨s₂, hrun, hmode₂, h₂⟩ := ih h₁ hmode₁
    refine ⟨s₂, ?_, hmode₂, h₂⟩
    rw [foldlM_cons, hstep]
    exact hrun

/-- **Any number of movements of the mouse**: nothing happens to the script until the first view
that `AddShot` does not see in it. -/
theorem updates_shot [BEq F] (host : Host F) (hn : 0 < n) (updates : List (MouseUpdate F))
    (hmode : InShotMode c n s) :
    ∃ s', updates.foldlM (update host) s = some s' ∧ InShotMode c n s' ∧
      ((∀ u ∈ updates, ShotSeen s.blocks c n u.pitch u.yaw) → s'.blocks = s.blocks) ∧
      ((¬ ∀ u ∈ updates, ShotSeen s.blocks c n u.pitch u.yaw) →
        Touched c n s.blocks s'.blocks) := by
  induction updates generalizing s with
  | nil => exact ⟨s, rfl, hmode, fun _ => rfl, fun hnot => absurd nofun hnot⟩
  | cons u updates ih =>
    obtain ⟨s₁, hstep, hmode₁, hblocks⟩ := update_shot hmode host u
    by_cases hseen : ShotSeen s.blocks c n u.pitch u.yaw
    · have hsame : s₁.blocks = s.blocks := by
        rw [hblocks, addShot_of_seen hseen]
        rfl
      obtain ⟨s₂, hrun, hmode₂, hall, hsome⟩ := ih hmode₁
      rw [hsame] at hall hsome
      refine ⟨s₂, ?_, hmode₂, fun h => hall fun v hv => h v (mem_cons_of_mem _ hv),
        fun hnot => hsome fun h => hnot fun v hv => ?_⟩
      · rw [foldlM_cons, hstep]
        exact hrun
      · rcases mem_cons.mp hv with rfl | hv
        · exact hseen
        · exact h v hv
    · have htouched : Touched c n s.blocks s₁.blocks := by
        rw [hblocks]
        exact touched_addShot hn _ hseen
      obtain ⟨s₂, hrun, hmode₂, htouched₂⟩ := htouched.updates hmode₁ hn host updates
      refine ⟨s₂, ?_, hmode₂, fun h => absurd (h u mem_cons_self) hseen, fun _ => htouched₂⟩
      rw [foldlM_cons, hstep]
      exact hrun

theorem cancel_shot [BEq F] (h : InShotMode c n s) (host : Host F) (env : HostEnv) :
    ∃ s', cancel host env s = some s' ∧
      s'.blocks = (s.playback.currentScript.removeShot c n).blocks := by
  obtain ⟨hmouse, rfl, rfl, hdrag⟩ := h
  rw [cancel_eq env hdrag]
  unfold cancelMode
  rw [hmouse]
  exact ⟨_, rfl, rfl⟩

variable {block : FrameBlock F} {after before : List (FrameBlock F)}

theorem enter_shot [BEq F] (h : OnBlock c before block after s) (hdrag : s.drag.dragType = .none)
    (hn : 0 < n) (host : Host F) (env : HostEnv) :
    ∃ s', enter host env s (.addShot n) = some s' ∧ InShotMode c n s' ∧ s'.blocks = s.blocks := by
  obtain ⟨p, hpitch⟩ := startPitch_spec host
    (s := { s with mouse := .shot, currentTurnframes := n }) (h.congr rfl)
  obtain ⟨y, hyaw⟩ := startYaw_spec host (s := { s with
    mouse := .shot
    currentTurnframes := n
    currentPitch := valueIn (getStackedValue host s) block (str "tas_view_pitch")
    viewPitch := p }) (h.congr rfl)
  refine ⟨_, Eq.trans ?_ hyaw, ⟨rfl, rfl, h.currentFrame, hdrag⟩, rfl⟩
  show editAddShot host s n = _
  unfold editAddShot
  rw [if_neg (not_le.mpr hn)]
  dsimp only
  rw [hpitch]
  rfl

theorem core_of_writtenAt {view attack : Int → Bool} {blocks : List (FrameBlock F)}
    (h : WrittenAt c blocks before block after) :
    core view attack (before ++ block :: after) = core view attack blocks := by
  rcases h.split with ⟨rfl, -⟩ | ⟨rfl, rfl, -⟩
  · rfl
  · rw [core_append, core_append, core_cons_of_isBlank rfl]

theorem undone_congr [BEq F] {blocks l l' : List (FrameBlock F)} (h : SameEffect l l') :
    Undone host blocks l ↔ Undone host blocks l' := by
  constructor
  · rintro ⟨hconvars, htoggles, hcommands⟩
    refine ⟨fun g name => ?_, fun g name => ?_, fun g => ?_⟩
    · rw [← h.convars]
      exact hconvars g name
    · rw [← h.toggles]
      exact htoggles g name
    · rw [← h.commands]
      exact hcommands g
  · rintro ⟨hconvars, htoggles, hcommands⟩
    refine ⟨fun g name => ?_, fun g name => ?_, fun g => ?_⟩
    · rw [h.convars]
      exact hconvars g name
    · rw [h.toggles]
      exact htoggles g name
    · rw [h.commands]
      exact hcommands g

/-- **A shot that is cancelled**, from entering its mode. -/
theorem editAndCancel_shot [BEq F] (host : Host F) (env : HostEnv)
    (h : WrittenAt s.playback.currentFrame s.blocks before block after)
    (hget : s.playback.getBlockForFrame (-1) = some (s.playback.withBlocks (before ++ block :: after), before.length))
    (hdrag : s.drag.dragType = .none) (hn : 0 < n) (updates : List (MouseUpdate F)) (env' : HostEnv)
    (hc : s.playback.currentFrame = c) :
    ∃ s', editAndCancel host env s (.addShot n) updates env' = some s' ∧
      ((∀ u ∈ updates, ShotSeen (before ++ block :: after) c n u.pitch u.yaw) →
        SameEffect s'.blocks (s.blocks.map (eraseShot (viewShot c n) (attackShot c)))) ∧
      ((¬ ∀ u ∈ updates, ShotSeen (before ++ block :: after) c n u.pitch u.yaw) →
        SameEffect s'.blocks
          (s.blocks.map (eraseShot (viewWindow c n) (attackWindow c)))) := by
  subst hc
  obtain ⟨s₁, henter, hmode, hblocks₁⟩ := enter_shot (onBlock_withBlocks h) hdrag hn host env
  obtain ⟨s₂, hrun, hmode₂, hall, hsome⟩ := updates_shot host hn updates hmode
  obtain ⟨s₃, hcancel, hblocks⟩ := cancel_shot hmode₂ host env'
  rw [hblocks₁, blocks_withBlocks] at hall hsome
  refine ⟨s₃, ?_, fun hseen => ?_, fun hnot => ?_⟩
  · unfold editAndCancel
    have henters : (EditCommand.addShot n).Enters := hn
    rw [enter_first host env h hget henters, henter]
    show (updates.foldlM (update host) s₁).bind _ = _
    rw [hrun]
    exact hcancel
  · -- only the frames of the shot are cleared
    rw [hblocks]
    have hclean : Clean (fun _ => false) (fun _ => false) s₂.playback.currentScript.blocks :=
      fun b _ => ⟨nofun, nofun⟩
    have hremoved := hclean.removeShot s.playback.currentFrame n
    simp only [Bool.or_false] at hremoved
    refine hremoved.sameEffect ?_
    rw [core_removeShot (fun _ => id) (fun _ => id), ← core_of_writtenAt h, ← hall hseen]
    rfl
  · -- the windows are cleared
    rw [hblocks]
    have htouched := hsome hnot
    have hremoved := htouched.clean.removeShot s.playback.currentFrame n
    have hwindow : ∀ f, viewShot s.playback.currentFrame n f = true →
        viewWindow s.playback.currentFrame n f = true := by
      have hrange : clearRange = 2 := rfl
      intro f hf
      simp only [viewShot, viewWindow, between_iff] at hf ⊢
      omega
    have hwindow' : ∀ f, attackShot s.playback.currentFrame f = true →
        attackWindow s.playback.currentFrame f = true := by
      have hrange : clearRange = 2 := rfl
      intro f hf
      simp only [attackShot, attackWindow, between_iff] at hf ⊢
      omega
    have hclean : Clean (viewWindow s.playback.currentFrame n)
        (attackWindow s.playback.currentFrame)
        (s₂.playback.currentScript.removeShot s.playback.currentFrame n).blocks := by
      refine hremoved.mono (fun f hf => ?_) fun f hf => ?_
      · cases viewShot s.playback.currentFrame n f <;> simp [hf]
      · cases attackShot s.playback.currentFrame f <;> simp [hf]
    refine hclean.sameEffect ?_
    rw [core_removeShot hwindow hwindow', ← core_of_writtenAt h, ← htouched.core_eq]
    rfl

end Shot

/-! ## The condition -/

/-- The value of a convar that is left is the one that was there, or a later block of the vector
covers it. -/
def Kept [BEq F] (host : Host F) (before : List (FrameBlock F)) (block : FrameBlock F)
    (after : List (FrameBlock F)) (name : Str) (left : F) : Prop :=
  Same left (currentValue host before block name) ∨ Covered block after name

/-- When cancelling a mode undoes it, by the script with a block on the current frame. -/
def Undoable [BEq F] (host : Host F) (c : Int) (blocks before : List (FrameBlock F))
    (block : FrameBlock F) (after : List (FrameBlock F)) (updates : List (MouseUpdate F)) :
    EditCommand → Prop
  | .strafe => Kept host before block after (str "tas_strafe")
      (host.ofInt (host.toInt (currentValue host before block (str "tas_strafe"))))
  | .swim =>
    Kept host before block after (str "tas_strafe")
      (host.ofInt (host.toInt (currentValue host before block (str "tas_strafe")))) ∧
    Kept host before block after (str "tas_strafe_type") (host.ofInt 4)
  | .addShot n =>
    -- without the entries that are erased the same values are in effect
    ((∀ u ∈ updates, ShotSeen (before ++ block :: after) c n u.pitch u.yaw) →
      Undone host blocks (blocks.map (eraseShot (viewShot c n) (attackShot c)))) ∧
    ((¬ ∀ u ∈ updates, ShotSeen (before ++ block :: after) c n u.pitch u.yaw) →
      Undone host blocks (blocks.map (eraseShot (viewWindow c n) (attackWindow c))))
  | _ => True

theorem left_iff_undoable [BEq F] (host : Host F) (c : Int) (blocks before : List (FrameBlock F))
    (block : FrameBlock F) (after : List (FrameBlock F)) (updates : List (MouseUpdate F))
    {cmd : EditCommand} (hcmd : ∀ turnFrames, cmd ≠ .addShot turnFrames) :
    (∀ e ∈ leftValues host (currentValue host before block) cmd,
      Same e.2 (currentValue host before block e.1) ∨ Covered block after e.1) ↔
      Undoable host c blocks before block after updates cmd := by
  have hsame : ∀ name, Same (currentValue host before block name)
      (currentValue host before block name) ∨ Covered block after name :=
    fun name => .inl (.refl _)
  cases cmd with
  | addShot turnFrames => exact absurd rfl (hcmd turnFrames)
  | strafe => simp [leftValues, savedValues, Undoable, Kept, hsame]
  | swim => simp [leftValues, savedValues, Undoable, Kept, hsame]
  | _ => simp [leftValues, savedValues, Undoable, hsame]

/-- **Cancelling a mouse mode.**  In edit mode with the stack up to date and no drag in progress,
entering a mode, any number of movements of the mouse, and `tas_cancel` leave the values in effect
and the commands of every frame as they were exactly if the mode is `Undoable`. -/
theorem cancel_undoes_iff [BEq F] [PartialEquivBEq F] (host : Host F) (s : Session F)
    (hedit : s.inEditMode = true) (hstack : s.StackUpToDate) (hdrag : s.drag.dragType = .none) :
    ∃ before block after,
      WrittenAt s.playback.currentFrame s.blocks before block after ∧
      ∀ cmd : EditCommand, cmd.Enters → ∀ env updates env',
        ∃ s', editAndCancel host env s cmd updates env' = some s' ∧
          (Undone host s.blocks s'.blocks ↔
            Undoable host s.playback.currentFrame s.blocks before block after updates cmd) := by
  have hne : s.playback.currentScript.blocks ≠ [] := by
    unfold Session.inEditMode PlaybackInfo.inEditMode at hedit
    simp only [Bool.and_eq_true, Bool.not_eq_true', isEmpty_eq_false_iff] at hedit
    exact hedit.2
  obtain ⟨before, block, after, hat, hget⟩ := PlaybackInfo.getBlockForFrame_eq hne (-1)
  have hcurrent : s.playback.frameOrCurrent (-1) = s.playback.currentFrame := rfl
  rw [hcurrent] at hat
  refine ⟨before, block, after, hat, fun cmd hcmd env updates env' => ?_⟩
  by_cases hshot : ∃ turnFrames, cmd = .addShot turnFrames
  · obtain ⟨n, rfl⟩ := hshot
    obtain ⟨s', hrun, hall, hsome⟩ := editAndCancel_shot host env hat hget hdrag hcmd
      updates env' rfl
    refine ⟨s', hrun, ?_⟩
    by_cases hseen : ∀ u ∈ updates, ShotSeen (before ++ block :: after) s.playback.currentFrame n
        u.pitch u.yaw
    · rw [undone_congr (hall hseen)]
      exact ⟨fun h => ⟨fun _ => h, fun hnot => absurd hseen hnot⟩, fun h => h.1 hseen⟩
    · rw [undone_congr (hsome hseen)]
      exact ⟨fun h => ⟨fun hyes => absurd hyes hseen, fun _ => h⟩, fun h => h.2 hseen⟩
  · have hcmd' : ∀ turnFrames, cmd ≠ .addShot turnFrames := fun n hn => hshot ⟨n, hn⟩
    obtain ⟨s', hrun, hiff⟩ := editAndCancel_convars host env hat hget hstack hdrag hcmd'
      updates env'
    exact ⟨s', hrun, hiff.trans (left_iff_undoable host _ _ before block after updates hcmd')⟩

/-- Attack is pressed on frame 19 and released on frame 20, where the game is paused. -/
def pausedAtShot : Session Int :=
  { Session.init exampleHost with
    gameState := .paused
    playing := true
    playback :=
      { currentFrame := 20
        stacked := { toggles := empty.put (str "attack") true }
        currentScript :=
          { blocks :=
              [{ frame := 1, commands := [str "map e1m1"] },
                { frame := 19, toggles := empty.put (str "attack") true },
                { frame := 20, toggles := empty.put (str "attack") false }] } } }

/-- Strafing towards a yaw and cancelling it is undone. -/
theorem cancel_undoes_strafe :
    ∃ s', editAndCancel exampleHost (exampleEnv .connected) pausedAtShot .strafe
        [⟨exampleEnv .connected, 10, 90⟩] (exampleEnv .connected) = some s' ∧
      Undone exampleHost pausedAtShot.blocks s'.blocks := by
  obtain ⟨before, block, after, -, hall⟩ := cancel_undoes_iff exampleHost pausedAtShot
    (by decide +kernel) (by decide +kernel) rfl
  obtain ⟨s', hrun, hiff⟩ := hall .strafe trivial (exampleEnv .connected)
    [⟨exampleEnv .connected, 10, 90⟩] (exampleEnv .connected)
  exact ⟨s', hrun, hiff.mpr (.inl (.inl rfl))⟩

/-- Swimming leaves `tas_strafe_type` at 4, and a shot in whose place another one is tried is gone
when the attempt is cancelled. -/
theorem cancel_leaves_swim_and_shot :
    pausedAtShot.inEditMode = true ∧ pausedAtShot.StackUpToDate ∧
    (∃ s', editAndCancel exampleHost (exampleEnv .connected) pausedAtShot .swim []
        (exampleEnv .connected) = some s' ∧ ¬ Undone exampleHost pausedAtShot.blocks s'.blocks) ∧
    ∃ s', editAndCancel exampleHost (exampleEnv .connected) pausedAtShot (.addShot 2)
        [⟨exampleEnv .connected, 10, 90⟩] (exampleEnv .connected) = some s' ∧
      ¬ Undone exampleHost pausedAtShot.blocks s'.blocks := by
  refine ⟨by decide +kernel, by decide +kernel,
    ⟨_, Option.some_get (by decide +kernel) |>.symm, fun h => ?_⟩,
    ⟨_, Option.some_get (by decide +kernel) |>.symm, fun h => ?_⟩⟩
  · have hleft := h.convars 20 (str "tas_strafe_type")
    revert hleft
    unfold Same
    decide +kernel
  · have hgone := h.toggles 19 (str "attack")
    revert hgone
    decide +kernel

end TASQuake.Analysis.EditCancel
