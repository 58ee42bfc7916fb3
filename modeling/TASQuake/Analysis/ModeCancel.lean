import TASQuake.Analysis.ModeSettings

/-!
# Editing sessions that set convars

In all modes but that for a shot, entering, moving the mouse and `tas_cancel` set a few convars on
the current frame.  The last settings put values back, and what they do not put back stays as it was
set when the mode was entered (`leftValues`).
-/

namespace TASQuake.Analysis.EditCancel

open Lib Session Option Prod List

variable {F : Type}

/-! ## An editing session -/

/-- The commands that enter a mouse mode. -/
inductive EditCommand where
  | strafe
  | swim
  | setYaw
  | setPitch
  | setView
  | addShot (turnFrames : Int)
deriving DecidableEq

/-- `tas_edit_add_shot` enters its mode with a positive number of frames only. -/
def EditCommand.Enters : EditCommand → Prop
  | .addShot turnFrames => 0 < turnFrames
  | _ => True

/-- Issue the command. -/
def enter [BEq F] (host : Host F) (env : HostEnv) (s : Session F) :
    EditCommand → Option (Session F)
  | .strafe => editStrafe host env s
  | .swim => editSwim host env s
  | .setYaw => editSetYaw host s
  | .setPitch => editSetPitch host s
  | .setView => editSetView host s
  | .addShot turnFrames => editAddShot host s turnFrames

/-- A view that the mouse has turned to when `ApplyMouseStuff` is called. -/
structure MouseUpdate (F : Type) where
  env : HostEnv
  pitch : F
  yaw : F

/-- One call of `ApplyMouseStuff`. -/
def update [BEq F] (host : Host F) (s : Session F) (u : MouseUpdate F) : Option (Session F) :=
  applyMouseStuff host u.env { s with viewPitch := u.pitch, viewYaw := u.yaw }

/-- Enter a mode, move the mouse, and cancel. -/
def editAndCancel [BEq F] (host : Host F) (env : HostEnv) (s : Session F) (cmd : EditCommand)
    (updates : List (MouseUpdate F)) (env' : HostEnv) : Option (Session F) := do
  let s ← enter host env s cmd
  let s ← updates.foldlM (update host) s
  cancel host env' s

/-- On every frame `blocks'` has the values in effect and the commands that `blocks` has. -/
structure Undone [BEq F] (host : Host F) (blocks blocks' : List (FrameBlock F)) : Prop where
  convars : ∀ g name, Same ((effectiveConvar blocks' g name).getD (host.defaultValue name))
    ((effectiveConvar blocks g name).getD (host.defaultValue name))
  toggles : ∀ g name, (effectiveToggle blocks' g name).getD false =
    (effectiveToggle blocks g name).getD false
  commands : ∀ g, commandsAt blocks' g = commandsAt blocks g

/-! ## The modes that set convars -/

section Values

/-- What `ApplyMouseStuff` sets. -/
def mouseValues (host : Host F) (s : Session F) : List (Str × F) :=
  match s.mouse with
  | .strafe => [(str "tas_strafe", host.ofInt 1), (str "tas_strafe_yaw", host.snap s.viewYaw)]
  | .mixed => [(str "tas_view_yaw", s.viewYaw), (str "tas_view_pitch", s.viewPitch)]
  | .pitch => [(str "tas_view_pitch", s.viewPitch)]
  | .yaw => [(str "tas_view_yaw", s.viewYaw)]
  | .swim => [(str "tas_strafe_yaw", s.viewYaw), (str "tas_strafe_pitch", s.viewPitch)]
  | .locked => []
  | .shot => []

/-- What `Cmd_TAS_Cancel` sets. -/
def cancelValues (host : Host F) (s : Session F) : List (Str × F) :=
  match s.mouse with
  | .strafe =>
    [(Session.strafeYaw, s.currentStrafeyaw), (str "tas_strafe", host.ofInt s.currentStrafe)]
  | .swim =>
    [(Session.strafeYaw, s.currentStrafeyaw), (str "tas_strafe_pitch", s.currentStrafepitch),
      (str "tas_strafe", host.ofInt s.currentStrafe)]
  | .mixed => [(str "tas_view_yaw", s.currentYaw), (str "tas_view_pitch", s.currentPitch)]
  | .yaw => [(str "tas_view_yaw", s.currentYaw)]
  | .pitch => [(str "tas_view_pitch", s.currentPitch)]
  | .locked => []
  | .shot => []

variable {host : Host F} {s : Session F}

theorem applyMouseStuff_eq [BEq F] (env : HostEnv) (h : s.mouse ≠ .shot) :
    applyMouseStuff host env s = setConvars host env s (mouseValues host s) := by
  unfold applyMouseStuff mouseValues
  cases hm : s.mouse with
  | shot => exact absurd hm h
  | _ => rfl

theorem cancelMode_eq [BEq F] (env : HostEnv) (h : s.mouse ≠ .shot) :
    cancelMode host env s = setConvars host env s (cancelValues host s) := by
  unfold cancelMode cancelValues
  cases hm : s.mouse with
  | shot => exact absurd hm h
  | _ => rfl

theorem mouseValues_subset (host : Host F) (s : Session F) :
    ∀ k ∈ (mouseValues host s).map fst, k ∈ (cancelValues host s).map fst := by
  unfold mouseValues cancelValues
  cases s.mouse with
  | strafe =>
    show ∀ k ∈ [str "tas_strafe", str "tas_strafe_yaw"], k ∈ [Session.strafeYaw, str "tas_strafe"]
    decide
  | swim =>
    show ∀ k ∈ [str "tas_strafe_yaw", str "tas_strafe_pitch"],
      k ∈ [Session.strafeYaw, str "tas_strafe_pitch", str "tas_strafe"]
    decide
  | _ => exact fun k hk => hk

theorem nodup_cancelValues (host : Host F) (s : Session F) :
    ((cancelValues host s).map fst).Nodup := by
  unfold cancelValues
  cases s.mouse with
  | strafe =>
    show [Session.strafeYaw, str "tas_strafe"].Nodup
    decide
  | swim =>
    show [Session.strafeYaw, str "tas_strafe_pitch", str "tas_strafe"].Nodup
    decide
  | mixed =>
    show [str "tas_view_yaw", str "tas_view_pitch"].Nodup
    decide
  | _ => simp

theorem cancelValues_congr (host : Host F) {s' : Session F} (h : SameEditor s s') :
    cancelValues host s' = cancelValues host s := by
  rw [h.rest]
  rfl

theorem cancel_eq [BEq F] (env : HostEnv) (h : s.drag.dragType = .none) :
    cancel host env s = (cancelMode host env s).map fun s => { s with mouse := .locked } := by
  have hno : s.isDragging env = false := by
    unfold Session.isDragging
    rw [h]
    rfl
  unfold Session.cancel
  rw [hno, map_eq_bind]
  rfl

end Values

section Run

variable {c : Int} {before after : List (FrameBlock F)} {block : FrameBlock F} {s : Session F}

/-- Two blocks that differ in the convars of a list only. -/
structure KeptBut (names : List Str) (a b : FrameBlock F) : Prop extends SameButConvars a b where
  convars : ∀ k ∉ names, a.convars.find? k = b.convars.find? k

theorem KeptBut.trans {names : List Str} {a b d : FrameBlock F} (h : KeptBut names a b)
    (h' : KeptBut names b d) : KeptBut names a d :=
  ⟨h.toSameButConvars.trans h'.toSameButConvars, fun k hk => (h.convars k hk).trans (h'.convars k hk)⟩

/-- **One movement of the mouse.** -/
theorem update_spec [BEq F] (h : OnBlock c before block after s) (hm : s.mouse ≠ .shot)
    (host : Host F) (u : MouseUpdate F) :
    ∃ s' block', update host s u = some s' ∧ SameEditor s s' ∧ OnBlock c before block' after s' ∧
      KeptBut ((cancelValues host s).map fst) block' block := by
  have hturned : OnBlock c before block after
      { s with viewPitch := u.pitch, viewYaw := u.yaw } := h.congr rfl
  have hsame : SameEditor s { s with viewPitch := u.pitch, viewYaw := u.yaw } := ⟨rfl, rfl⟩
  have hmouse : ({ s with viewPitch := u.pitch, viewYaw := u.yaw } : Session F).mouse ≠ .shot := hm
  unfold update
  rw [applyMouseStuff_eq u.env hmouse]
  obtain ⟨s', hset, hsame', hon⟩ := hturned.setConvars host u.env
    (mouseValues host { s with viewPitch := u.pitch, viewYaw := u.yaw })
  refine ⟨s', _, hset, hsame.trans hsame', hon, sameButConvars_writeConvars _ _ _, fun k hk => ?_⟩
  apply find?_writeConvars_of_notMem
  intro hmem
  have hin := mouseValues_subset host _ k hmem
  rw [cancelValues_congr host hsame] at hin
  exact hk hin

theorem updates_spec [BEq F] (h : OnBlock c before block after s) (hm : s.mouse ≠ .shot)
    (host : Host F) (updates : List (MouseUpdate F)) :
    ∃ s' block', updates.foldlM (update host) s = some s' ∧ SameEditor s s' ∧
      OnBlock c before block' after s' ∧
      KeptBut ((cancelValues host s).map fst) block' block := by
  induction updates generalizing s block with
  | nil => exact ⟨s, block, rfl, .refl s, h, ⟨rfl, rfl, rfl⟩, fun _ _ => rfl⟩
  | cons u updates ih =>
    obtain ⟨s₁, block₁, hstep, hsame, hon, hkept⟩ := update_spec h hm host u
    have hm₁ : s₁.mouse ≠ .shot := by
      rw [hsame.rest]
      exact hm
    obtain ⟨s₂, block₂, hrun, hsame', hon', hkept'⟩ := ih hon hm₁
    rw [cancelValues_congr host hsame] at hkept'
    refine ⟨s₂, block₂, ?_, hsame.trans hsame', hon', hkept'.trans hkept⟩
    rw [foldlM_cons, hstep]
    exact hrun

/-- **The updates and the cancelling**: every convar of the mode is left at the value that is put
back, and the other convars are left alone. -/
theorem cancel_updates_spec [BEq F] [PartialEquivBEq F] (h : OnBlock c before block after s)
    (hm : s.mouse ≠ .shot) (hdrag : s.drag.dragType = .none) (host : Host F)
    (updates : List (MouseUpdate F)) (env : HostEnv) :
    ∃ s' block', ((updates.foldlM (update host) s).bind (cancel host env)) = some s' ∧
      s'.blocks = before ++ block' :: after ∧
      KeptBut ((cancelValues host s).map fst) block' block ∧
      ∀ e ∈ cancelValues host s, Same (valueIn (getStackedValue host s) block' e.1) e.2 := by
  obtain ⟨s₁, block₁, hrun, hsame, hon, hkept⟩ := updates_spec h hm host updates
  have hdrag₁ : s₁.drag.dragType = .none := by
    rw [hsame.rest]
    exact hdrag
  have hm₁ : s₁.mouse ≠ .shot := by
    rw [hsame.rest]
    exact hm
  obtain ⟨s₂, hset, -, hon₂⟩ := hon.setConvars host env (cancelValues host s₁)
  rw [cancelValues_congr host hsame, hsame.getStackedValue host] at hon₂
  refine ⟨{ s₂ with mouse := .locked },
    writeConvars (getStackedValue host s) block₁ (cancelValues host s), ?_, hon₂.blocks,
    KeptBut.trans ⟨sameButConvars_writeConvars _ _ _, fun k hk => ?_⟩ hkept, fun e he => ?_⟩
  · rw [hrun, bind_some, cancel_eq env hdrag₁, cancelMode_eq env hm₁, hset]
    rfl
  · exact find?_writeConvars_of_notMem _ _ hk
  · exact same_valueIn_writeConvars _ _ (nodup_cancelValues host s) he

end Run

/-! ## Entering a mode -/

section Enter

variable {c : Int} {before after : List (FrameBlock F)} {block : FrameBlock F} {s : Session F}
  (host : Host F)

theorem onBlock_withBlocks (h : WrittenAt s.playback.currentFrame s.blocks before block after) :
    OnBlock s.playback.currentFrame before block after
      (s.withBlocks (before ++ block :: after)) := by
  refine ⟨rfl, rfl, h.before_lt, h.le_frame, ?_⟩
  rcases h.split with ⟨heq, b, hb, hbf⟩ | ⟨-, hblock, -⟩
  · exact ⟨b, heq ▸ hb, hbf⟩
  · exact ⟨block, by simp, by rw [hblock]; rfl⟩

theorem getExistingValue_first (h : WrittenAt s.playback.currentFrame s.blocks before block after)
    (hget : s.playback.getBlockForFrame (-1) =
      some (s.playback.withBlocks (before ++ block :: after), before.length)) (name : Str) :
    getExistingValue host s name =
      getExistingValue host (s.withBlocks (before ++ block :: after)) name := by
  rw [(onBlock_withBlocks h).getExistingValue host name]
  unfold Session.getExistingValue Session.blockForFrame
  rw [hget]
  show (((before ++ block :: after)[before.length]?).bind _).bind _ = _
  rw [getElem?_append_cons]
  rfl

theorem startPitch_spec (h : OnBlock c before block after s) :
    ∃ p, startPitch host s = some { s with
      currentPitch := valueIn (getStackedValue host s) block (str "tas_view_pitch")
      viewPitch := p } := by
  have h' : OnBlock c before block after { s with
      currentPitch := valueIn (getStackedValue host s) block (str "tas_view_pitch") } := h.congr rfl
  obtain ⟨p, hp⟩ := h'.getPitchConvar host (str "tas_view_pitch")
  refine ⟨p, ?_⟩
  unfold startPitch
  rw [h.getExistingValue host]
  simp only [some_bind, hp]

theorem startYaw_spec (h : OnBlock c before block after s) :
    ∃ y, startYaw host s = some { s with
      currentYaw := valueIn (getStackedValue host s) block (str "tas_view_yaw")
      viewYaw := y } := by
  have h' : OnBlock c before block after { s with
      currentYaw := valueIn (getStackedValue host s) block (str "tas_view_yaw") } := h.congr rfl
  obtain ⟨y, hy⟩ := h'.getYawConvar host (str "tas_view_yaw")
  refine ⟨y, ?_⟩
  unfold startYaw
  rw [h.getExistingValue host]
  simp only [some_bind, hy]

/-- The state in which the strafing modes have saved what they share. -/
structure StrafeStarted (host : Host F) (s : Session F) (value : Str → F) (s' : Session F) :
    Prop where
  playback : s'.playback = s.playback
  drag : s'.drag = s.drag
  strafe : s'.currentStrafe = host.toInt (value (str "tas_strafe"))
  strafeyaw : s'.currentStrafeyaw = value Session.strafeYaw

theorem startStrafe_spec (h : OnBlock c before block after s) :
    ∃ s', startStrafe host s = some s' ∧
      StrafeStarted host s (valueIn (getStackedValue host s) block) s' := by
  have hsaved : OnBlock c before block after { s with
      currentStrafe := host.toInt (valueIn (getStackedValue host s) block (str "tas_strafe")) } :=
    h.congr rfl
  unfold startStrafe
  rw [h.getExistingValue host]
  dsimp only [bind_eq_bind, bind_some]
  rw [hsaved.getExistingValue host]
  dsimp only [bind_some]
  obtain ⟨y, hy⟩ := OnBlock.getYawConvar (s := { s with
    currentStrafe := host.toInt (valueIn (getStackedValue host s) block (str "tas_strafe"))
    currentStrafeyaw := valueIn (getStackedValue host s) block (str "tas_strafe_yaw") })
    (h.congr rfl) host (str "tas_strafe_yaw")
  exact ⟨_, congrArg (bind · _) hy, rfl, rfl, rfl, rfl⟩

theorem enter_first [BEq F] (env : HostEnv)
    (h : WrittenAt s.playback.currentFrame s.blocks before block after)
    (hget : s.playback.getBlockForFrame (-1) =
      some (s.playback.withBlocks (before ++ block :: after), before.length))
    {cmd : EditCommand} (hcmd : cmd.Enters) :
    enter host env s cmd = enter host env (s.withBlocks (before ++ block :: after)) cmd := by
  have hfirst : ∀ s' : Session F, s'.playback = s.playback → ∀ name,
      getExistingValue host s' name =
        getExistingValue host (s'.withBlocks (before ++ block :: after)) name := by
    intro s' hs' name
    apply getExistingValue_first host
    · unfold Session.blocks
      rw [hs']
      exact h
    · rw [hs']
      exact hget
  have hpitch : ∀ s' : Session F, s'.playback = s.playback →
      startPitch host s' = startPitch host (s'.withBlocks (before ++ block :: after)) := by
    intro s' hs'
    unfold startPitch
    rw [hfirst s' hs']
  have hyaw : ∀ s' : Session F, s'.playback = s.playback →
      startYaw host s' = startYaw host (s'.withBlocks (before ++ block :: after)) := by
    intro s' hs'
    unfold startYaw
    rw [hfirst s' hs']
  have hstrafe : startStrafe host s = startStrafe host (s.withBlocks (before ++ block :: after)) := by
    unfold startStrafe
    rw [hfirst s rfl]
  cases cmd with
  | strafe =>
    show editStrafe host env s = editStrafe host env _
    unfold editStrafe
    rw [hstrafe]
  | swim =>
    show editSwim host env s = editSwim host env _
    unfold editSwim
    rw [hstrafe]
  | setYaw => exact hyaw { s with mouse := .yaw } rfl
  | setPitch => exact hpitch { s with mouse := .pitch } rfl
  | setView =>
    show editSetView host s = editSetView host _
    unfold editSetView
    rw [hpitch { s with mouse := .mixed } rfl]
    rfl
  | addShot turnFrames =>
    have hpos := not_le.mpr hcmd
    show editAddShot host s turnFrames = editAddShot host _ turnFrames
    unfold editAddShot
    rw [if_neg hpos, if_neg hpos]
    dsimp only
    rw [hpitch { s with mouse := .shot, currentTurnframes := turnFrames } rfl]
    rfl

/-- What the commands set when a mode is entered. -/
def enterValues (host : Host F) : EditCommand → List (Str × F)
  | .strafe => [(str "tas_strafe", host.ofInt 1)]
  | .swim => [(str "tas_strafe", host.ofInt 1), (str "tas_strafe_type", host.ofInt 4)]
  | _ => []

/-- What is put back when a mode is cancelled, by the values at its start. -/
def savedValues (host : Host F) (value : Str → F) : EditCommand → List (Str × F)
  | .strafe =>
    [(Session.strafeYaw, value Session.strafeYaw),
      (str "tas_strafe", host.ofInt (host.toInt (value (str "tas_strafe"))))]
  | .swim =>
    [(Session.strafeYaw, value Session.strafeYaw),
      (str "tas_strafe_pitch", value (str "tas_strafe_pitch")),
      (str "tas_strafe", host.ofInt (host.toInt (value (str "tas_strafe"))))]
  | .setYaw => [(str "tas_view_yaw", value (str "tas_view_yaw"))]
  | .setPitch => [(str "tas_view_pitch", value (str "tas_view_pitch"))]
  | .setView =>
    [(str "tas_view_yaw", value (str "tas_view_yaw")),
      (str "tas_view_pitch", value (str "tas_view_pitch"))]
  | .addShot _ => []

/-- The state in which a mode that sets convars is entered. -/
structure Entered [BEq F] (host : Host F) (c : Int) (before : List (FrameBlock F))
    (block : FrameBlock F) (after : List (FrameBlock F)) (s : Session F) (cmd : EditCommand)
    (s' : Session F) : Prop where
  on : OnBlock c before (writeConvars (getStackedValue host s) block (enterValues host cmd)) after s'
  mouse : s'.mouse ≠ .shot
  drag : s'.drag = s.drag
  stacked : getStackedValue host s' = getStackedValue host s
  saved : cancelValues host s' = savedValues host (valueIn (getStackedValue host s) block) cmd

theorem entered_of_setConvars [BEq F] {b : Session F} (env : HostEnv) {d : EditCommand}
    (h : OnBlock c before block after b) (hstacked : getStackedValue host b = getStackedValue host s)
    (hdrag : b.drag = s.drag) {m : MouseState} (hmode : m ≠ .shot)
    (hsaved : cancelValues host { b with mouse := m } =
      savedValues host (valueIn (getStackedValue host s) block) d) :
    ∃ s₂, setConvars host env b (enterValues host d) = some s₂ ∧
      Entered host c before block after s d { s₂ with mouse := m } := by
  obtain ⟨s₂, hset, hsame, hon⟩ := h.setConvars host env (enterValues host d)
  rw [hstacked] at hon
  refine ⟨s₂, hset, hon.congr rfl, hmode, ?_, ?_, ?_⟩
  · rw [hsame.rest]
    exact hdrag
  · rw [← hstacked]
    exact hsame.getStackedValue host
  · rw [hsame.rest]
    exact hsaved

theorem enter_spec [BEq F] (env : HostEnv) (h : OnBlock c before block after s)
    {cmd : EditCommand} (hcmd : ∀ turnFrames, cmd ≠ .addShot turnFrames) :
    ∃ s', enter host env s cmd = some s' ∧ Entered host c before block after s cmd s' := by
  cases cmd with
  | strafe =>
    obtain ⟨s₁, hstart, hst⟩ := startStrafe_spec host h
    have hstacked : getStackedValue host s₁ = getStackedValue host s := by
      unfold getStackedValue
      rw [hst.playback]
    obtain ⟨s₂, hset, hentered⟩ := entered_of_setConvars host env (h.congr hst.playback) hstacked
      hst.drag (m := .strafe) (d := .strafe) nofun (by
        show [(Session.strafeYaw, s₁.currentStrafeyaw),
          (str "tas_strafe", host.ofInt s₁.currentStrafe)] = _
        rw [hst.strafe, hst.strafeyaw]
        rfl)
    refine ⟨_, ?_, hentered⟩
    show editStrafe host env s = _
    unfold editStrafe
    rw [hstart]
    exact congrArg (bind · _) hset
  | swim =>
    obtain ⟨s₁, hstart, hst⟩ := startStrafe_spec host h
    have hstacked : getStackedValue host s₁ = getStackedValue host s := by
      unfold getStackedValue
      rw [hst.playback]
    have h₁ := h.congr hst.playback
    have hread := h₁.getExistingValue host (str "tas_strafe_pitch")
    rw [hstacked] at hread
    obtain ⟨p, hp⟩ := OnBlock.getYawConvar (s := { s₁ with
      currentStrafepitch := valueIn (getStackedValue host s) block (str "tas_strafe_pitch") })
      (h₁.congr rfl) host (str "tas_strafe_pitch")
    obtain ⟨s₂, hset, hentered⟩ := entered_of_setConvars (s := s) host env (d := .swim) (b := { s₁ with
        currentStrafepitch := valueIn (getStackedValue host s) block (str "tas_strafe_pitch")
        viewPitch := p }) (h₁.congr rfl) hstacked hst.drag (m := .swim) nofun (by
        show [(Session.strafeYaw, s₁.currentStrafeyaw), (str "tas_strafe_pitch", _),
          (str "tas_strafe", host.ofInt s₁.currentStrafe)] = _
        rw [hst.strafe, hst.strafeyaw]
        rfl)
    refine ⟨_, ?_, hentered⟩
    show editSwim host env s = _
    unfold editSwim
    rw [hstart]
    dsimp only [bind_eq_bind, bind_some]
    rw [hread]
    dsimp only [bind_some]
    rw [hp]
    exact congrArg (bind · _) hset
  | setYaw =>
    obtain ⟨y, hstart⟩ := startYaw_spec host (s := { s with mouse := .yaw }) (h.congr rfl)
    exact ⟨_, hstart, h.congr rfl, nofun, rfl, rfl, rfl⟩
  | setPitch =>
    obtain ⟨p, hstart⟩ := startPitch_spec host (s := { s with mouse := .pitch }) (h.congr rfl)
    exact ⟨_, hstart, h.congr rfl, nofun, rfl, rfl, rfl⟩
  | setView =>
    obtain ⟨p, hpitch⟩ := startPitch_spec host (s := { s with mouse := .mixed }) (h.congr rfl)
    obtain ⟨y, hyaw⟩ := startYaw_spec host (s := { s with
      mouse := .mixed
      currentPitch := valueIn (getStackedValue host s) block (str "tas_view_pitch")
      viewPitch := p }) (h.congr rfl)
    refine ⟨_, Eq.trans ?_ hyaw, h.congr rfl, nofun, rfl, rfl, rfl⟩
    show editSetView host s = _
    unfold editSetView
    rw [hpitch]
    rfl
  | addShot turnFrames => exact absurd rfl (hcmd turnFrames)

end Enter

/-! ## What the modes that set convars leave -/

section Left

variable {host : Host F} {c : Int} {blocks before after : List (FrameBlock F)}
  {block block' : FrameBlock F} {s : Session F}

/-- The value of a convar on the current frame, by the blocks before it and its own. -/
def currentValue (host : Host F) (before : List (FrameBlock F)) (block : FrameBlock F)
    (name : Str) : F :=
  (block.convars.find? name).getD
    ((lastValue (fun b => b.convars.find? name) before).getD (host.defaultValue name))

theorem undone_iff [BEq F] (h : WrittenAt c blocks before block after)
    (hkept : SameButConvars block' block) :
    Undone host blocks (before ++ block' :: after) ↔
      ∀ name, Same (currentValue host before block' name) (currentValue host before block name) ∨
        Covered block after name := by
  have hconvar : ∀ g name, effectiveConvar blocks g name =
      effectiveConvar (before ++ block :: after) g name := fun g name => h.lastValue_eq rfl g
  have hunchanged : ∀ name, (∀ g,
      Same ((effectiveConvar (before ++ block' :: after) g name).getD (host.defaultValue name))
        ((effectiveConvar (before ++ block :: after) g name).getD (host.defaultValue name))) ↔
      Same (currentValue host before block' name) (currentValue host before block name) ∨
        Covered block after name := fun name =>
    convar_unchanged_iff h.before_lt_frame hkept.frame name (host.defaultValue name)
  constructor
  · intro hundone name
    refine (hunchanged name).mp fun g => ?_
    rw [← hconvar]
    exact hundone.convars g name
  · intro hall
    refine ⟨fun g name => ?_, fun g name => ?_, fun g => ?_⟩
    · rw [hconvar]
      exact (hunchanged name).mpr (hall name) g
    · have hadded : effectiveToggle blocks g name =
          effectiveToggle (before ++ block :: after) g name := h.lastValue_eq rfl g
      have hrewrite : effectiveToggle (before ++ block' :: after) g name =
          effectiveToggle (before ++ block :: after) g name :=
        lastValue_upTo_rewrite before after hkept.frame (by rw [hkept.toggles]) g
      rw [hadded, hrewrite]
    · rw [h.commandsAt_eq, commandsAt_rewrite before after hkept.frame hkept.commands]

theorem undone_iff_left [BEq F] [PartialEquivBEq F] (h : WrittenAt c blocks before block after)
    (hkept : SameButConvars block' block) {left : List (Str × F)}
    (hleft : ∀ e ∈ left, Same (currentValue host before block' e.1) e.2)
    (hothers : ∀ k ∉ left.map fst, block'.convars.find? k = block.convars.find? k) :
    Undone host blocks (before ++ block' :: after) ↔
      ∀ e ∈ left, Same e.2 (currentValue host before block e.1) ∨ Covered block after e.1 := by
  rw [undone_iff h hkept]
  constructor
  · intro hall e he
    exact (hall e.1).imp_left fun hsame => (hleft e he).symm.trans hsame
  · intro hall name
    by_cases hname : name ∈ left.map fst
    · obtain ⟨e, he, rfl⟩ := mem_map.mp hname
      exact (hall e he).imp_left fun hsame => (hleft e he).trans hsame
    · left
      unfold currentValue
      rw [hothers name hname]
      exact .refl _

/-- The values that a mode leaves, by those at its start: those that are put back, and the
`tas_strafe_type` of the swimming mode. -/
def leftValues (host : Host F) (value : Str → F) : EditCommand → List (Str × F)
  | .swim => savedValues host value .swim ++ [(str "tas_strafe_type", host.ofInt 4)]
  | cmd => savedValues host value cmd

theorem savedValues_subset (host : Host F) (value : Str → F) (cmd : EditCommand) :
    ∀ e ∈ savedValues host value cmd, e ∈ leftValues host value cmd := by
  intro e he
  cases cmd with
  | swim => exact mem_append_left _ he
  | _ => exact he

theorem enterValues_subset (host : Host F) (value : Str → F) (cmd : EditCommand) :
    ∀ k ∈ (enterValues host cmd).map fst, k ∈ (leftValues host value cmd).map fst := by
  cases cmd with
  | strafe =>
    show ∀ k ∈ [str "tas_strafe"], k ∈ [Session.strafeYaw, str "tas_strafe"]
    decide
  | swim =>
    show ∀ k ∈ [str "tas_strafe", str "tas_strafe_type"],
      k ∈ [Session.strafeYaw, str "tas_strafe_pitch", str "tas_strafe", str "tas_strafe_type"]
    decide
  | _ => nofun

theorem mem_enterValues_of_left {value : Str → F} {cmd : EditCommand} {e : Str × F}
    (he : e ∈ leftValues host value cmd) :
    e ∈ savedValues host value cmd ∨
      e ∈ enterValues host cmd ∧ e.1 ∉ (savedValues host value cmd).map fst := by
  cases cmd with
  | swim =>
    rcases mem_append.mp he with he | he
    · exact .inl he
    · obtain rfl := mem_singleton.mp he
      refine .inr ⟨by simp [enterValues], ?_⟩
      show str "tas_strafe_type" ∉ [Session.strafeYaw, str "tas_strafe_pitch", str "tas_strafe"]
      decide
  | _ => exact .inl he

theorem nodup_enterValues (host : Host F) (cmd : EditCommand) :
    ((enterValues host cmd).map fst).Nodup := by
  cases cmd with
  | swim =>
    show [str "tas_strafe", str "tas_strafe_type"].Nodup
    decide
  | _ => simp [enterValues]

theorem ne_skill_of_mem_leftValues (host : Host F) (value : Str → F) (cmd : EditCommand) :
    ∀ k ∈ (leftValues host value cmd).map fst, k ≠ str "skill" := by
  cases cmd with
  | strafe =>
    show ∀ k ∈ [Session.strafeYaw, str "tas_strafe"], k ≠ str "skill"
    decide
  | swim =>
    show ∀ k ∈ [Session.strafeYaw, str "tas_strafe_pitch", str "tas_strafe", str "tas_strafe_type"],
      k ≠ str "skill"
    decide
  | setYaw =>
    show ∀ k ∈ [str "tas_view_yaw"], k ≠ str "skill"
    decide
  | setPitch =>
    show ∀ k ∈ [str "tas_view_pitch"], k ≠ str "skill"
    decide
  | setView =>
    show ∀ k ∈ [str "tas_view_yaw", str "tas_view_pitch"], k ≠ str "skill"
    decide
  | addShot turnFrames => nofun

theorem leftValues_congr (host : Host F) {value value' : Str → F}
    (h : ∀ name, name ≠ str "skill" → value name = value' name) (cmd : EditCommand) :
    leftValues host value cmd = leftValues host value' cmd := by
  have hstrafe := h (str "tas_strafe") (by decide)
  have hyaw := h Session.strafeYaw (by decide)
  have hpitch := h (str "tas_strafe_pitch") (by decide)
  have hview := h (str "tas_view_yaw") (by decide)
  have hview' := h (str "tas_view_pitch") (by decide)
  cases cmd <;> simp only [leftValues, savedValues, hstrafe, hyaw, hpitch, hview, hview']

/-- **An editing session that sets convars**, from entering to cancelling. -/
theorem editAndCancel_convars [BEq F] [PartialEquivBEq F] (host : Host F) (env : HostEnv)
    (h : WrittenAt s.playback.currentFrame s.blocks before block after)
    (hget : s.playback.getBlockForFrame (-1) =
      some (s.playback.withBlocks (before ++ block :: after), before.length))
    (hstack : s.StackUpToDate) (hdrag : s.drag.dragType = .none) {cmd : EditCommand}
    (hcmd : ∀ turnFrames, cmd ≠ .addShot turnFrames) (updates : List (MouseUpdate F))
    (env' : HostEnv) :
    ∃ s', editAndCancel host env s cmd updates env' = some s' ∧
      (Undone host s.blocks s'.blocks ↔
        ∀ e ∈ leftValues host (currentValue host before block) cmd,
          Same e.2 (currentValue host before block e.1) ∨ Covered block after e.1) := by
  have henters : cmd.Enters := by
    cases cmd with
    | addShot turnFrames => exact absurd rfl (hcmd turnFrames)
    | _ => trivial
  obtain ⟨s₁, henter, hentered⟩ := enter_spec host env (onBlock_withBlocks h) hcmd
  obtain ⟨s₂, block', hrun, hblocks, hkept, hsaved⟩ := cancel_updates_spec hentered.on
    hentered.mouse (by rw [hentered.drag]; exact hdrag) host updates env'
  rw [hentered.saved] at hkept hsaved
  rw [hentered.stacked] at hsaved
  -- what is stacked is what the blocks before the current one set
  have hvalue : ∀ b name, name ≠ str "skill" →
      valueIn (getStackedValue host (s.withBlocks (before ++ block :: after))) b name =
        currentValue host before b name := by
    intro b name hname
    have hstacked : getStackedValue host (s.withBlocks (before ++ block :: after)) name =
        getStackedValue host s name := rfl
    unfold valueIn currentValue
    rw [hstacked, getStackedValue_eq hstack host hname, h.takeWhile_eq]
  set stacked := getStackedValue host (s.withBlocks (before ++ block :: after)) with hstackeddef
  have hsame := hkept.toSameButConvars.trans (sameButConvars_writeConvars stacked block _)
  refine ⟨s₂, ?_, ?_⟩
  · unfold editAndCancel
    rw [enter_first host env h hget henters, henter]
    exact hrun
  · rw [hblocks]
    apply undone_iff_left h hsame
    · intro e he
      have hname := ne_skill_of_mem_leftValues host _ cmd e.1 (mem_map_of_mem he)
      rw [← hvalue _ _ hname]
      rw [← leftValues_congr host (hvalue block) cmd] at he
      rcases mem_enterValues_of_left he with he | ⟨he, hnot⟩
      · exact hsaved e he
      · unfold valueIn
        rw [hkept.convars e.1 hnot]
        exact same_valueIn_writeConvars stacked block (nodup_enterValues host cmd) he
    · intro k hk
      rw [← leftValues_congr host (hvalue block) cmd] at hk
      rw [hkept.convars k fun hmem => hk ?_, find?_writeConvars_of_notMem stacked block fun hmem =>
        hk (enterValues_subset host _ cmd k hmem)]
      obtain ⟨e, he, rfl⟩ := mem_map.mp hmem
      exact mem_map_of_mem (savedValues_subset host _ cmd e he)

end Left

end TASQuake.Analysis.EditCancel
