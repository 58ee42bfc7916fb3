import TASQuake.Interface.ScriptMeaning
import TASQuake.Model.Editing

/-!
# Resuming equals replaying

The frame hook queues the blocks frame by frame and stacks their settings as it goes; a skip
computes the stack from scratch and goes on from there.  At frame `c` the hook plays exactly the
blocks of frame `c` (`scan_eq_window`), whatever the run started from (`plays_window`).
-/

namespace TASQuake.Analysis.Resume

open Lib Session FrameBlock List

variable {F : Type}

/-! ## The blocks of a range of frames -/

/-- The blocks with frames from `a` up to `b`, without `b`. -/
def window (a b : Int) (l : List (FrameBlock F)) : List (FrameBlock F) :=
  below frame b (l.filter fun block => decide (a ≤ block.frame))

section Window

variable {l : List (FrameBlock F)} (h : KeySorted frame l)

include h

/-- The scan of the hook at frame `c`: skip to the first block at or after `c`, take the
blocks not after `c`. -/
theorem scan_eq_window (c : Int) :
    ((l.drop (l.findIdx fun b => decide (c ≤ b.frame))).takeWhile
      fun b => decide (b.frame ≤ c)) = window c (c + 1) l := by
  have hnot : (fun b : FrameBlock F => !decide (b.frame < c)) = fun b => decide (c ≤ b.frame) := by
    funext b
    by_cases hb : b.frame < c
    · simp [hb]
    · have hge : c ≤ b.frame := not_lt.mp hb
      simp [hge]
  have hdrop : l.drop (l.findIdx fun b => decide (c ≤ b.frame)) =
      l.filter fun b => decide (c ≤ b.frame) := by
    rw [← hnot, ← dropWhile_eq_drop_findIdx_not]
    have hsplit := h.below_append_filter c
    rw [← h.takeWhile_eq_below] at hsplit
    have hcat : l.takeWhile (fun b => decide (b.frame < c)) ++
        l.dropWhile (fun b => decide (b.frame < c)) = l := takeWhile_append_dropWhile
    rw [hnot]
    exact append_cancel_left (hcat.trans hsplit.symm)
  have hle : (fun b : FrameBlock F => decide (b.frame ≤ c)) = fun b => decide (b.frame < c + 1) := by
    funext b
    rw [decide_eq_decide]
    omega
  rw [hdrop, hle, (h.sublist filter_sublist).takeWhile_eq_below]
  rfl

theorem below_append_window {a b : Int} (hab : a ≤ b) :
    below frame a l ++ window a b l = below frame b l := by
  have hsplit := congrArg (below frame b) (h.below_append_filter a)
  rw [below_append] at hsplit
  have hlow : below frame b (below frame a l) =
      below frame a l := by
    refine filter_eq_self.mpr fun c hc => ?_
    have hca : c.frame < a := of_decide_eq_true (mem_filter.mp hc).2
    rw [decide_eq_true_eq]
    omega
  rw [hlow] at hsplit
  exact hsplit

theorem window_append {a b c : Int} (hab : a ≤ b) (hbc : b ≤ c) :
    window a b l ++ window b c l = window a c l := by
  have hfilter : (l.filter fun block => decide (a ≤ block.frame)).filter
      (fun block => decide (b ≤ block.frame)) = l.filter fun block => decide (b ≤ block.frame) := by
    rw [filter_filter]
    refine filter_congr fun block _ => ?_
    by_cases hb : b ≤ block.frame
    · have ha : a ≤ block.frame := by omega
      simp [ha, hb]
    · simp [hb]
  have happ := below_append_window (h.sublist
    (filter_sublist (p := fun block : FrameBlock F => decide (a ≤ block.frame)))) hbc
  unfold window at happ ⊢
  rw [hfilter] at happ
  exact happ

end Window

theorem window_self (a : Int) (l : List (FrameBlock F)) : window a a l = [] := by
  refine below_eq_nil fun b hb => ?_
  exact of_decide_eq_true (mem_filter.mp hb).2

theorem window_zero_of_nonneg {l : List (FrameBlock F)} (h : ∀ b ∈ l, 0 ≤ b.frame) (k : Int) :
    window 0 k l = below frame k l := by
  have hall : (l.filter fun b => decide (0 ≤ b.frame)) = l :=
    filter_eq_self.mpr fun b hb => by simpa using h b hb
  unfold window
  rw [hall]

theorem frame_of_mem_window {a : Int} {l : List (FrameBlock F)} {b : FrameBlock F}
    (hb : b ∈ window a (a + 1) l) : b.frame = a := by
  obtain ⟨hmem, hlt⟩ := mem_filter.mp hb
  have hge : a ≤ b.frame := of_decide_eq_true (mem_filter.mp hmem).2
  have hlt' : b.frame < a + 1 := of_decide_eq_true hlt
  omega

/-! ## Unpaused frames -/

/-- The hook gets as far as playing the current frame: the game is not loading, no script is
queued, the game is unpaused or about to be, the script is running and the pause frame is not
reached. -/
structure Unpaused (env : HostEnv) (s : Session F) : Prop where
  notLoading : s.gameState ≠ .loading
  notQueued : s.runQueued = false
  notPaused : s.gameState = .paused → s.playback.shouldUnpause = true
  running : s.playback.scriptRunning = true
  notReached : s.pauseReached env = false

/-- An unpaused frame plays the blocks of the current frame and moves on.
(tas/script_playback.cpp:383-438) -/
theorem hostFrameHook_of_unpaused [BEq F] {host : Host F} {env : HostEnv} {s s' : Session F}
    (h : Unpaused env s) (hs : hostFrameHook host env s = some s') :
    s'.playback.currentScript = s.playback.currentScript ∧
      s'.playback.currentFrame = s.playback.currentFrame + 1 ∧
      s'.playback.stacked = stackAll s.playback.stacked s.blocksToPlay ∧
      s'.afterframes = s.afterframes ++ s.blocksToPlay.map (queueEntry host) := by
  -- a running script is not in edit mode, so the mouse does nothing
  have hedit : (savestateFrameHook env s).inEditMode = false := by
    unfold inEditMode PlaybackInfo.inEditMode
    show (!s.playback.scriptRunning && _ && _) = false
    rw [h.running]
    rfl
  unfold hostFrameHook mouseHook at hs
  rw [if_neg h.notLoading, h.notQueued, hedit] at hs
  have hs' := Option.some.inj hs
  rw [← hs']
  have hreached : ∀ t : Session F, t.playback.pauseFrame = s.playback.pauseFrame →
      t.playback.currentFrame = s.playback.currentFrame → t.pauseReached env = false := by
    intro t hp hc
    have hr := h.notReached
    unfold pauseReached at hr ⊢
    rw [hp, hc]
    exact hr
  unfold playOrPause
  cases hg : s.gameState with
  | loading => exact absurd hg h.notLoading
  | unpaused =>
    simp [savestateFrameHook, hg, h.running, hreached, playFrame, stackAll, blocksToPlay, blocks,
      PlaybackInfo.getBlockNumber, PlaybackInfo.frameOrCurrent]
  | paused =>
    simp [savestateFrameHook, hg, h.running, h.notPaused hg, hreached, playFrame, stackAll,
      blocksToPlay, blocks, PlaybackInfo.getBlockNumber, PlaybackInfo.frameOrCurrent]

/-- The session goes from `s` to `s'` in `n` unpaused frames; `log` lists what the hook has queued,
with the frame on which it did.  Between two calls the engine may change anything but `playback`. -/
inductive Plays [BEq F] (host : Host F) : Session F → ℕ → List (Int × AfterFrames) → Session F → Prop
  | start (s : Session F) : Plays host s 0 [] s
  | tick {s s₁ s₂ s₃ : Session F} {n : ℕ} {log : List (Int × AfterFrames)}
      {queued : List AfterFrames} {env : HostEnv}
      (before : Plays host s n log s₁) (engine : s₂.playback = s₁.playback)
      (unpaused : Unpaused env s₂) (hook : hostFrameHook host env s₂ = some s₃)
      (queue : s₃.afterframes = s₂.afterframes ++ queued) :
      Plays host s (n + 1) (log ++ queued.map fun e => (s₂.playback.currentFrame, e)) s₃

/-- What is logged for a block. -/
def logEntry (host : Host F) (b : FrameBlock F) : Int × AfterFrames := (b.frame, queueEntry host b)

/-- Induction on the frames played: the frames from the start up to the current one have been
queued and stacked. -/
theorem plays_window [BEq F] {host : Host F} {s s' : Session F} {n : ℕ}
    {log : List (Int × AfterFrames)} (hl : KeySorted frame s.blocks)
    (h : Plays host s n log s') :
    s'.playback.currentScript = s.playback.currentScript ∧
      s'.playback.currentFrame = s.playback.currentFrame + n ∧
      s'.playback.stacked = stackAll s.playback.stacked
        (window s.playback.currentFrame (s.playback.currentFrame + n) s.blocks) ∧
      log = (window s.playback.currentFrame (s.playback.currentFrame + n) s.blocks).map
        (logEntry host) := by
  induction h with
  | start =>
    have hw : window s.playback.currentFrame (s.playback.currentFrame + (0 : ℕ)) s.blocks = [] := by
      rw [Int.natCast_zero, Int.add_zero]
      exact window_self _ _
    rw [hw]
    exact ⟨rfl, by omega, rfl, rfl⟩
  | @tick s₁ s₂ s₃ n log queued env before engine unpaused hook queue ih =>
    obtain ⟨hscript, hframe, hstack, hlog⟩ := ih
    obtain ⟨hscript', hframe', hstack', hqueue'⟩ := hostFrameHook_of_unpaused unpaused hook
    rw [engine] at hscript' hframe' hstack'
    -- the blocks played are those of the current frame
    have hplay : s₂.blocksToPlay = window (s.playback.currentFrame + n)
        (s.playback.currentFrame + n + 1) s.blocks := by
      have hsorted : KeySorted frame s₂.blocks := by
        unfold blocks at hl ⊢
        rw [engine, hscript]
        exact hl
      have hscan := scan_eq_window hsorted s₂.playback.currentFrame
      have hblocks : s₂.blocks = s.blocks := by
        unfold blocks
        rw [engine, hscript]
      rw [engine, hframe, hblocks] at hscan
      unfold blocksToPlay PlaybackInfo.getBlockNumber TASScript.getBlockIndex
        PlaybackInfo.frameOrCurrent
      rw [if_pos rfl, engine, hframe]
      show ((s₂.blocks.drop (List.findIdx _ s₁.playback.currentScript.blocks)).takeWhile _) = _
      rw [hblocks, hscript]
      exact hscan
    have hqueued := append_cancel_left (queue.symm.trans hqueue')
    have hn : s.playback.currentFrame + ((n + 1 : ℕ) : Int) = s.playback.currentFrame + n + 1 := by
      omega
    have hsplit := window_append hl (show s.playback.currentFrame ≤ s.playback.currentFrame + n by
      omega) (show s.playback.currentFrame + n ≤ s.playback.currentFrame + n + 1 by omega)
    refine ⟨hscript'.trans hscript, ?_, ?_, ?_⟩
    · omega
    · rw [hn, ← hsplit, hstack', hstack, hplay, stackAll_append]
    · rw [hn, ← hsplit, map_append, hlog, hqueued, hplay, map_map]
      congr 1
      refine map_congr_left fun b hb => ?_
      show (s₂.playback.currentFrame, queueEntry host b) = logEntry host b
      rw [engine, hframe, ← frame_of_mem_window hb]
      rfl

/-! ## Starting at frame 0 and resuming -/

/-- The session that `Run_Script` sets up to play a script from frame 0: without a skip, or
with one for which no savestate is found. -/
def Started (host : Host F) (script : TASScript F) (s₀ : Session F) : Prop :=
  ∃ (env : HostEnv) (s : Session F) (frame : Int) (skip ss : Bool),
    s.playback.currentScript = script ∧ script.blocks ≠ [] ∧ canSkip env = true ∧
      (skip = true → ss = true ∧ s.savestates.loadState env.savestateEnabled frame = none) ∧
      s₀ = runScript host env s frame skip ss

/-- The session that `Savestate_Skip(k)` leaves to `Run_Script`, which sets it running. -/
def Resumed (host : Host F) (script : TASScript F) (k : Int) (s₁ : Session F) : Prop :=
  ∃ s : Session F, s.playback.currentScript = script ∧
    s₁.playback = { (savestateSkip host s k).playback with scriptRunning := true }

theorem started_playback {host : Host F} {script : TASScript F} {s₀ : Session F}
    (h : Started host script s₀) :
    s₀.playback.currentScript = script ∧ s₀.playback.currentFrame = 0 ∧
      ∃ b : FrameBlock F, s₀.playback.stacked = b.reset := by
  obtain ⟨env, s, frame, skip, ss, hscript, hne, hskip, hload, rfl⟩ := h
  have hblocks : s.blocks ≠ [] := by
    unfold blocks
    rw [hscript]
    exact hne
  obtain ⟨s', hs'⟩ := setPauseFrame_isSome hblocks frame
  rw [runScript_of_canSkip hskip hs']
  obtain ⟨p, hp⟩ := setPauseFrame_inv hs'
  have hscript' : s'.playback.currentScript = script := by
    rw [hp]
    exact hscript
  unfold startScript
  cases skip with
  | false => exact ⟨hscript', rfl, s'.playback.stacked, rfl⟩
  | true =>
    obtain ⟨rfl, hnone⟩ := hload rfl
    have hframe : (savestateLoadState env s'.prepareScript frame).2 = -1 := by
      have hsave : s'.prepareScript.savestates = s.savestates := by
        rw [hp]
        rfl
      rw [savestateLoadState_frame, hsave, hnone]
      rfl
    have hskip' : (skipScript host env s'.prepareScript frame true).playback =
        s'.prepareScript.playback := by
      rw [skipScript_playback, hframe]
      rfl
    simp only [if_true, setRunning, hskip']
    exact ⟨hscript', rfl, s'.playback.stacked, rfl⟩

/-! ## The theorem -/

/-- **Resuming equals replaying.** After `k` unpaused frames from frame 0 the stacked settings are
those that `CalculateStack` computes there, and exactly the blocks before frame `k` have been
queued, each once and on its own frame, in script order.  A run resumed at frame `k` queues on the
following frames what the run from frame 0 queues on them, and comes to the same stacked settings.
(tas/script_playback.cpp:87-152, 383-438, libtasquake/src/script_playback.cpp:27-66) -/
theorem resume_equals_replay [BEq F] (host : Host F) (script : TASScript F)
    (h : Ordered script.blocks) (s₀ sₖ : Session F) (k : ℕ) (log : List (Int × AfterFrames))
    (hstart : Started host script s₀) (hplay : Plays host s₀ k log sₖ) :
    (sₖ.playback.currentFrame = k ∧
      sₖ.playback.stacked.convars = sₖ.playback.calculateStack.stacked.convars ∧
      sₖ.playback.stacked.toggles = sₖ.playback.calculateStack.stacked.toggles ∧
      log = (below frame k script.blocks).map (logEntry host)) ∧
    ∀ (m : ℕ) (s₁ sₙ sₙ' : Session F) (log₁ log₂ : List (Int × AfterFrames)),
      Plays host sₖ m log₁ sₙ → Resumed host script k s₁ → Plays host s₁ m log₂ sₙ' →
        sₙ'.playback.currentFrame = sₙ.playback.currentFrame ∧ log₂ = log₁ ∧
          sₙ'.playback.stacked.convars = sₙ.playback.stacked.convars ∧
          sₙ'.playback.stacked.toggles = sₙ.playback.stacked.toggles := by
  obtain ⟨hscript, hzero, b, hreset⟩ := started_playback hstart
  have hblocks : s₀.blocks = script.blocks := by
    unfold blocks
    rw [hscript]
  have hsorted : KeySorted frame s₀.blocks := by
    rw [hblocks]
    exact h.sorted
  obtain ⟨hscriptₖ, hframeₖ, hstackₖ, hlogₖ⟩ := plays_window hsorted hplay
  have hk : (0 : Int) + (k : Int) = k := by omega
  rw [hzero, hk, hblocks, window_zero_of_nonneg h.nonneg] at hstackₖ hlogₖ
  rw [hzero, hk] at hframeₖ
  rw [hscript] at hscriptₖ
  -- stacking from any block that has been reset gives the same contents
  have hcalc : ∀ c : FrameBlock F,
      (stackAll c.reset (below frame k script.blocks)).convars =
          sₖ.playback.stacked.convars ∧
        (stackAll c.reset (below frame k script.blocks)).toggles =
          sₖ.playback.stacked.toggles := by
    intro c
    have hc : c.reset.convars = b.reset.convars := rfl
    have ht : c.reset.toggles = b.reset.toggles := rfl
    rw [hstackₖ, hreset]
    exact stackAll_congr hc ht _
  refine ⟨⟨hframeₖ, ?_, ?_, hlogₖ⟩, ?_⟩
  · unfold PlaybackInfo.calculateStack
    rw [hscriptₖ, hframeₖ, h.sorted.takeWhile_eq_below]
    exact (hcalc _).1.symm
  · unfold PlaybackInfo.calculateStack
    rw [hscriptₖ, hframeₖ, h.sorted.takeWhile_eq_below]
    exact (hcalc _).2.symm
  · intro m s₁ sₙ sₙ' log₁ log₂ hrun hresume hrun'
    obtain ⟨s, hs, hs₁⟩ := hresume
    rw [savestateSkip_playback] at hs₁
    have hblocksₖ : sₖ.blocks = script.blocks := by
      unfold blocks
      rw [hscriptₖ]
    have hblocks₁ : s₁.blocks = script.blocks := by
      unfold blocks
      rw [hs₁, ← hs]
    have hblocksₛ : s.blocks = script.blocks := by
      unfold blocks
      rw [hs]
    have hframe₁ : s₁.playback.currentFrame = k := by rw [hs₁]
    obtain ⟨-, hframe, hstack, hlog⟩ := plays_window (by rw [hblocksₖ]; exact h.sorted) hrun
    obtain ⟨-, hframe', hstack', hlog'⟩ := plays_window (by rw [hblocks₁]; exact h.sorted) hrun'
    rw [hblocksₖ, hframeₖ] at hstack hlog
    rw [hblocks₁, hframe₁] at hstack' hlog'
    have hstart₁ : s₁.playback.stacked.convars = sₖ.playback.stacked.convars ∧
        s₁.playback.stacked.toggles = sₖ.playback.stacked.toggles := by
      rw [hs₁, hblocksₛ, h.sorted.takeWhile_eq_below]
      exact hcalc s.playback.stacked
    have hcongr := stackAll_congr hstart₁.1 hstart₁.2
      (window (k : Int) ((k : Int) + (m : Int)) script.blocks)
    rw [hstack, hstack', hlog, hlog']
    exact ⟨by omega, rfl, hcongr⟩

/-- Two blocks, on frames 0 and 1. -/
def exampleScript : TASScript Int :=
  { blocks :=
      [{ frame := 0, convars := OrderedMap.empty.put (str "tas_strafe") 1 },
        { frame := 1, toggles := OrderedMap.empty.put (str "jump") true }] }

/-- The session in which the example is started. -/
def exampleSession : Session Int :=
  { init exampleHost with playback := { currentScript := exampleScript } }

/-- The example, started to play up to frame 2. -/
def exampleStarted : Session Int :=
  runScript exampleHost (exampleEnv .disconnected) exampleSession 2 false true

/-- One frame later. -/
def exampleNext : Session Int :=
  (hostFrameHook exampleHost (exampleEnv .connected) exampleStarted).getD exampleStarted

/-- The example, resumed at frame 1. -/
def exampleResumed : Session Int := setRunning (savestateSkip exampleHost exampleSession 1)

/-- The example played for two frames, and resumed after the first: both queue the jump. -/
theorem resume_equals_replay_example :
    ∃ s₁ s₂ s₂' log log₁ log₂, Plays exampleHost exampleStarted 1 log s₁ ∧
      Plays exampleHost s₁ 1 log₁ s₂ ∧ Plays exampleHost exampleResumed 1 log₂ s₂' ∧
      log = (below frame 1 exampleScript.blocks).map (logEntry exampleHost) ∧
      log₂ = log₁ ∧ log₂.length = 1 := by
  have hordered : Ordered exampleScript.blocks := by
    refine ⟨?_, by decide⟩
    unfold KeySorted
    decide
  have hstart : Started exampleHost exampleScript exampleStarted :=
    ⟨exampleEnv .disconnected, exampleSession, 2, false, true, rfl, by decide, by decide,
      fun hskip => absurd hskip (by decide), rfl⟩
  have hunpaused : Unpaused (exampleEnv .connected) exampleStarted :=
    ⟨by decide, by decide, by decide, by decide, by decide⟩
  have hhook : hostFrameHook exampleHost (exampleEnv .connected) exampleStarted =
      some exampleNext := rfl
  have hplay := Plays.tick (@Plays.start Int _ exampleHost _) rfl hunpaused hhook rfl
  have hunpaused' : Unpaused (exampleEnv .connected) exampleNext :=
    ⟨by decide, by decide, by decide, by decide, by decide⟩
  have hnext := Plays.tick (@Plays.start Int _ exampleHost _) rfl hunpaused' rfl rfl
  have hresumed : Unpaused (exampleEnv .disconnected) exampleResumed :=
    ⟨by decide, by decide, by decide, by decide, by decide⟩
  have hagain := Plays.tick (@Plays.start Int _ exampleHost _) rfl hresumed rfl rfl
  have h := resume_equals_replay exampleHost exampleScript hordered _ _ 1 _ hstart hplay
  have hb := h.2 1 exampleResumed _ _ _ _ hnext ⟨exampleSession, rfl, rfl⟩ hagain
  exact ⟨_, _, _, _, _, _, hplay, hnext, hagain, h.1.2.2.2, hb.2.1, rfl⟩

end TASQuake.Analysis.Resume
