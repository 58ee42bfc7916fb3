import TASQuake.Analysis.SavestateNumbers
import TASQuake.Lib.KeyedList
import TASQuake.Model.Session

/-!
# Where skips and advances go

The target of `tas_script_skip` with a negative argument `n` is documented as the frame `n + 1`
after the last one; the command computes `L - n - 1` instead of `L + n + 1`.  It starts from the
largest savestate frame up to the target (`latest_of_loadState`), except that `Run_Script` takes a
negative frame for "no savestate".

`tas_script_advance_block` adds its argument to the index of the first block at or after the current
frame and corrects the sum by one if it moves forward from a frame without a block.
-/

namespace TASQuake.Analysis.PlaybackTargets

open Lib Session FrameBlock SavestateNumbers SortedMap Savestates List

variable {F γ : Type}

/-! ## The savestate that is loaded -/

/-- The savestates are stored under their own frames. -/
def Filed (m : Savestates γ) : Prop := ∀ e ∈ m.savestateMap.entries, e.2.frame = e.1

/-- `k` is the largest savestate frame that is not after `frame`. -/
structure Latest (m : Savestates γ) (frame k : Int) : Prop where
  mem : k ∈ m.keys
  le : k ≤ frame
  largest : ∀ k' ∈ m.keys, k' ≤ frame → k' ≤ k

theorem Latest.unique {m : Savestates γ} {frame k k' : Int} (h : Latest m frame k)
    (h' : Latest m frame k') : k = k' :=
  le_antisymm (h'.largest k h.mem h.le) (h.largest k' h'.mem h'.le)

theorem filed_step (m : Savestates γ) (call : SavestateNumbers.Call γ) (m' : Savestates γ)
    (h : Filed m) (hs : step m call = some m') : Filed m' := by
  cases call with
  | create can mapName snapshot frame force =>
    cases hs
    rcases createSavestate_cases m can mapName snapshot frame force with heq | heq
    · rw [heq]
      exact h
    · rw [heq]
      intro e he
      rcases mem_put.mp he with rfl | ⟨he, -⟩
      · rfl
      · exact h e he
  | updated frame =>
    cases hs
    exact fun e he => h e (mem_eraseAbove.mp he).1
  | clear =>
    cases hs
    exact fun e he => absurd he (by simp [clear])

theorem filed_run {calls : List (SavestateNumbers.Call γ)} {m : Savestates γ}
    (h : run step {} calls = some m) : Filed m :=
  invariant_run (I := Filed) (fun s call s' hs _ => filed_step s call s' hs)
    (fun _ he => absurd he not_mem_nil) (guarded_of_forall fun _ _ => trivial) h

theorem keySorted_entries (m : Savestates γ) : KeySorted Prod.fst m.savestateMap.entries :=
  m.savestateMap.sorted.imp le_of_lt

theorem latest_of_loadState {m : Savestates γ} (hm : Filed m) {enabled : Bool} {frame : Int}
    {elem : Savestate γ} (h : m.loadState enabled frame = some elem) :
    enabled = true ∧ Latest m frame elem.frame := by
  unfold loadState at h
  split at h
  · cases h
  · next hne =>
    have henabled : enabled = true := by
      cases enabled with
      | true => rfl
      | false => simp at hne
    refine ⟨henabled, ?_⟩
    split at h
    · next e hfind =>
      cases h
      have hmem := find?_eq_some_iff.mp hfind
      have hframe := hm _ hmem
      rw [hframe]
      exact ⟨mem_map_of_mem hmem, le_rfl, fun k' _ hle => hle⟩
    · next hfind =>
      rw [(keySorted_entries m).takeWhile_eq_below] at h
      obtain ⟨e, he, rfl⟩ := Option.map_eq_some_iff.mp h
      have hbelow := mem_of_getLast? he
      obtain ⟨hmem, hlt⟩ := mem_filter.mp hbelow
      rw [hm e hmem]
      refine ⟨mem_map_of_mem hmem, (of_decide_eq_true hlt).le, ?_⟩
      intro k' hk' hle
      obtain ⟨e', he', rfl⟩ := mem_map.mp hk'
      have hne : e'.1 ≠ frame := by
        rintro rfl
        have hsome := find?_eq_some_iff.mpr he'
        rw [hfind] at hsome
        cases hsome
      refine ((keySorted_entries m).sublist filter_sublist).le_of_getLast? he e' ?_
      exact mem_filter.mpr ⟨he', decide_eq_true (lt_of_le_of_ne hle hne)⟩

theorem keys_of_loadState_none {m : Savestates γ} {enabled : Bool} {frame : Int}
    (h : m.loadState enabled frame = none) : enabled = false ∨ ∀ k ∈ m.keys, frame < k := by
  unfold loadState at h
  split at h
  · next hor =>
    rcases Bool.or_eq_true_iff.mp hor with hempty | hdisabled
    · refine .inr fun k hk => ?_
      rw [Savestates.keys, isEmpty_iff.mp hempty] at hk
      cases hk
    · exact .inl (by simpa using hdisabled)
  · refine .inr fun k hk => ?_
    split at h
    · cases h
    · next hfind =>
      obtain ⟨e, he, rfl⟩ := mem_map.mp hk
      rw [(keySorted_entries m).takeWhile_eq_below, Option.map_eq_none_iff,
        getLast?_eq_none_iff] at h
      by_contra hle
      rcases (not_lt.mp hle).eq_or_lt with heq | hlt
      · have hsome := find?_eq_some_iff.mpr he
        rw [heq, hfind] at hsome
        cases hsome
      · have hmem : e ∈ below Prod.fst frame m.savestateMap.entries :=
          mem_filter.mpr ⟨he, decide_eq_true hlt⟩
        rw [h] at hmem
        cases hmem

/-! ## Skipping -/

/-- The frame that the argument of `tas_script_skip` stands for in a script with last frame
`last`. -/
def documentedFrame (last n : Int) : Int := if 0 ≤ n then n else last + n + 1

/-- Playback up to `target` starts at `k`: at the largest savestate frame up to there, or at 0. -/
def StartsAt (m : Savestates γ) (enabled : Bool) (target k : Int) : Prop :=
  if enabled = true ∧ ∃ k' ∈ m.keys, k' ≤ target then Latest m target k else k = 0

/-- The session that a skip of `s` to `target` leaves. -/
structure SkippedTo (env : HostEnv) (s : Session F) (target : Int) (s' : Session F) : Prop where
  pauseFrame : s'.playback.pauseFrame = target
  running : s'.playback.scriptRunning = true
  start : StartsAt s.savestates env.savestateEnabled target s'.playback.currentFrame

/-- `Run_Script` takes a negative savestate frame for the answer that there is none. -/
def NoNegativeStart (env : HostEnv) (s : Session F) (target : Int) : Prop :=
  env.savestateEnabled = true → ∀ k, Latest s.savestates target k → 0 ≤ k

theorem runScript_playback (host : Host F) {env : HostEnv} {s : Session F} {frame : Int}
    (hne : s.blocks ≠ []) (hcls : env.clsState = .disconnected) (hframe : 0 ≤ frame) :
    (runScript host env s frame true true).playback.pauseFrame = frame ∧
      (runScript host env s frame true true).playback.scriptRunning = true ∧
      (runScript host env s frame true true).playback.currentFrame =
        max 0 (((s.savestates.loadState env.savestateEnabled frame).map Savestate.frame).getD (-1)) := by
  obtain ⟨last, hlast⟩ : ∃ last, s.blocks.getLast? = some last := by
    cases hl : s.blocks.getLast? with
    | none => exact absurd (getLast?_eq_none_iff.mp hl) hne
    | some last => exact ⟨last, rfl⟩
  have hpause : s.setPauseFrame frame =
      some { s with playback := { s.playback with pauseFrame := frame } } := by
    unfold setPauseFrame
    rw [hlast]
    simp only [if_pos hframe]
  rw [runScript_of_canSkip (decide_eq_true hcls) hpause]
  simp only [startScript, if_true, setRunning, skipScript_playback, savestateLoadState_frame]
  generalize hload : ((s.savestates.loadState env.savestateEnabled frame).map
    Savestate.frame).getD (-1) = start
  have hload' : (((prepareScript
      { s with playback := { s.playback with pauseFrame := frame } }).savestates.loadState
        env.savestateEnabled frame).map Savestate.frame).getD (-1) = start := hload
  rw [hload']
  by_cases hneg : start < 0
  · simp only [hneg, decide_true, Bool.and_self, if_true]
    refine ⟨rfl, trivial, ?_⟩
    rw [max_eq_left hneg.le]
    rfl
  · simp only [hneg, decide_false, Bool.false_and, Bool.false_eq_true, if_false,
      savestateSkip_playback]
    refine ⟨rfl, trivial, ?_⟩
    rw [max_eq_right (not_lt.mp hneg)]

/-- A skip to a frame of the script starts at the right savestate, unless that is at a negative
frame. -/
theorem skippedTo_runScript_iff (host : Host F) {env : HostEnv} {s : Session F} {frame : Int}
    (hne : s.blocks ≠ []) (hcls : env.clsState = .disconnected) (hfiled : Filed s.savestates)
    (hframe : 0 ≤ frame) :
    SkippedTo env s frame (runScript host env s frame true true) ↔
      NoNegativeStart env s frame := by
  obtain ⟨hpause, hrunning, hcurrent⟩ := runScript_playback host hne hcls hframe
  cases hload : s.savestates.loadState env.savestateEnabled frame with
  | none =>
    have hstart : (runScript host env s frame true true).playback.currentFrame = 0 := by
      rw [hcurrent, hload]
      rfl
    have hnone : ∀ k, env.savestateEnabled = true → ¬ Latest s.savestates frame k := by
      intro k henabled hk
      rcases keys_of_loadState_none hload with hdisabled | hafter
      · rw [henabled] at hdisabled
        cases hdisabled
      · exact absurd hk.le (not_le.mpr (hafter k hk.mem))
    have hno : ¬ (env.savestateEnabled = true ∧ ∃ k ∈ s.savestates.keys, k ≤ frame) := by
      rintro ⟨henabled, k, hk, hle⟩
      rcases keys_of_loadState_none hload with hdisabled | hafter
      · rw [henabled] at hdisabled
        cases hdisabled
      · exact absurd hle (not_le.mpr (hafter k hk))
    refine ⟨fun _ henabled k hk => absurd hk (hnone k henabled), fun _ => ⟨hpause, hrunning, ?_⟩⟩
    rw [StartsAt, if_neg hno]
    exact hstart
  | some elem =>
    obtain ⟨henabled, hlatest⟩ := latest_of_loadState hfiled hload
    have hstart : (runScript host env s frame true true).playback.currentFrame =
        max 0 elem.frame := by
      rw [hcurrent, hload]
      rfl
    have hstarts : StartsAt s.savestates env.savestateEnabled frame (max 0 elem.frame) ↔
        Latest s.savestates frame (max 0 elem.frame) := by
      rw [StartsAt, if_pos ⟨henabled, elem.frame, hlatest.mem, hlatest.le⟩]
    constructor
    · intro h _ k hk
      have hmax := h.start
      rw [hstart, hstarts] at hmax
      rw [hk.unique hmax]
      exact le_max_left 0 elem.frame
    · intro h
      refine ⟨hpause, hrunning, ?_⟩
      rw [hstart, hstarts, max_eq_right (h henabled elem.frame hlatest)]
      exact hlatest

/-- **Where `tas_script_skip` goes.**  In a disconnected game `tas_script_skip n` sets the documented
pause frame and starts playback at the largest savestate frame up to it, or at 0, exactly if `n` is
not below -1 and that savestate frame is not negative.
(tas/script_playback.cpp:59-152, 582-594, savestate.cpp:63-99, functionality.md:55) -/
theorem scriptSkip_documented_iff (host : Host F) (env : HostEnv) (s : Session F) (n : Int)
    (hne : s.blocks ≠ []) (hcls : env.clsState = .disconnected) (hfiled : Filed s.savestates)
    (hn : -(s.playback.getLastFrame + 1) ≤ n) :
    SkippedTo env s (documentedFrame s.playback.getLastFrame n) (scriptSkip host env s n) ↔
      -1 ≤ n ∧ NoNegativeStart env s (documentedFrame s.playback.getLastFrame n) := by
  unfold scriptSkip documentedFrame
  generalize s.playback.getLastFrame = last at hn
  by_cases hneg : n < 0
  · rw [if_neg (not_le.mpr hneg)]
    simp only [if_pos hneg]
    by_cases hlast : n = -1
    · subst hlast
      have htarget : last + -1 + 1 = last := by omega
      have hcomputed : last - -1 - 1 = last := by omega
      rw [htarget, hcomputed, skippedTo_runScript_iff host hne hcls hfiled (by omega)]
      exact ⟨fun h => ⟨le_rfl, h⟩, fun h => h.2⟩
    · refine ⟨fun h => ?_, fun h => by omega⟩
      have hpause := (runScript_playback host hne hcls
        (show 0 ≤ last - n - 1 by omega)).1
      have hdoc := h.pauseFrame
      rw [hpause] at hdoc
      omega
  · have hnonneg : 0 ≤ n := not_lt.mp hneg
    rw [if_pos hnonneg]
    simp only [if_neg hneg]
    rw [skippedTo_runScript_iff host hne hcls hfiled hnonneg]
    exact ⟨fun h => ⟨by omega, h⟩, fun h => h.2⟩

/-- A savestate at frame 60. -/
def exampleSavestates : Savestates (List (FrameBlock Int)) :=
  ({} : Savestates _).createSavestate true (str "e1m1") [] 60 false

/-- A session with that savestate and a script that ends at frame 100. -/
def exampleSession : Session Int :=
  { Session.init exampleHost with
    playback := { currentScript := { blocks := [{ frame := 8 }, { frame := 100 }] } }
    savestates := exampleSavestates }

/-- `tas_script_skip -1` skips to frame 100, from the savestate. -/
theorem scriptSkip_documented_last :
    SkippedTo (exampleEnv .disconnected) exampleSession
      (documentedFrame exampleSession.playback.getLastFrame (-1))
      (scriptSkip exampleHost (exampleEnv .disconnected) exampleSession (-1)) := by
  have hfiled :=
    filed_run (show run step {} [.create true (str "e1m1") [] 60 false] =
      some exampleSavestates from rfl)
  refine (scriptSkip_documented_iff exampleHost (exampleEnv .disconnected) exampleSession (-1)
    (cons_ne_nil _ _) rfl hfiled (by decide)).mpr ⟨le_rfl, fun _ k hk => ?_⟩
  have hkey := hk.mem
  rw [mem_singleton.mp hkey]
  decide

/-- `tas_script_skip -2` skips to frame 101, after the end of the script. -/
theorem scriptSkip_second_last_after_end :
    documentedFrame exampleSession.playback.getLastFrame (-2) = 99 ∧
      (scriptSkip exampleHost (exampleEnv .disconnected) exampleSession (-2)).playback.pauseFrame =
        101 :=
  ⟨rfl, rfl⟩

/-! ## Advancing by blocks -/

/-- The block that a move by `k` blocks from frame `c` comes to: the `k`-th one after `c`, or the
`-k`-th one before it. -/
def blockFrom (blocks : List (FrameBlock F)) (c k : Int) : Option (FrameBlock F) :=
  if 0 < k then (blocks.filter fun b => decide (c < b.frame))[(k - 1).toNat]?
  else (below frame c blocks).reverse[(-k - 1).toNat]?

/-- A script with ordered frames falls into the blocks before a frame and those from it on; the
index of the frame is the number of the former. -/
theorem split_at_frame (script : TASScript F) (h : KeySorted frame script.blocks) (c : Int) :
    ∃ after, script.blocks = below frame c script.blocks ++ after ∧
      script.getBlockIndex c = (below frame c script.blocks).length ∧
      ∀ b ∈ after, c ≤ b.frame := by
  refine ⟨script.blocks.filter fun b => decide (c ≤ b.frame), (h.below_append_filter c).symm, ?_,
    fun b hb => of_decide_eq_true (mem_filter.mp hb).2⟩
  have hnot : (fun b : FrameBlock F => !decide (c ≤ b.frame)) = fun b => decide (b.frame < c) := by
    funext b
    rw [← decide_not, decide_eq_decide]
    exact not_le
  rw [TASScript.getBlockIndex, ← h.takeWhile_eq_below, ← hnot, takeWhile_eq_take_findIdx_not,
    length_take]
  simp [findIdx_le_length]

section Positions

variable {before after : List (FrameBlock F)} {c k : Int}

theorem blockFrom_of_pos (hbefore : ∀ b ∈ before, b.frame < c) {b : FrameBlock F}
    (hb : c ≤ b.frame) (hafter : ∀ b' ∈ after, b.frame < b'.frame) (hk : 0 < k) :
    blockFrom (before ++ b :: after) c k =
      (b :: after)[(if b.frame ≠ c then k - 1 else k).toNat]? := by
  have hnone : before.filter (fun b => decide (c < b.frame)) = [] :=
    filter_eq_nil_iff.mpr fun b' hb' => by simpa using (hbefore b' hb').le
  have hall : after.filter (fun b => decide (c < b.frame)) = after :=
    filter_eq_self.mpr fun b' hb' => decide_eq_true (lt_of_le_of_lt hb (hafter b' hb'))
  rw [blockFrom, if_pos hk, filter_append, hnone, nil_append]
  by_cases heq : b.frame = c
  · have hpred : k.toNat = (k - 1).toNat + 1 := by omega
    rw [filter_cons_of_neg (by simp [heq]), hall, if_neg (not_not.mpr heq), hpred,
      getElem?_cons_succ]
  · have hlt : c < b.frame := lt_of_le_of_ne hb (Ne.symm heq)
    rw [filter_cons_of_pos (by simpa using hlt), hall, if_pos heq]

theorem blockFrom_of_neg (hbefore : ∀ b ∈ before, b.frame < c) (hafter : ∀ b ∈ after, c ≤ b.frame)
    (hk : k < 0) :
    blockFrom (before ++ after) c k =
      if (before.length : Int) + k < 0 then none else before[((before.length : Int) + k).toNat]? := by
  have hall : below frame c before = before :=
    filter_eq_self.mpr fun b hb => decide_eq_true (hbefore b hb)
  rw [blockFrom, if_neg (not_lt.mpr hk.le), below_append, hall, below_eq_nil hafter, append_nil]
  split
  · next hout =>
    refine getElem?_eq_none ?_
    rw [length_reverse]
    omega
  · next hin =>
    rw [getElem?_reverse (by omega)]
    congr 1
    omega

end Positions

theorem getElem?_advanceBlockTarget {s : Session F}
    (hs : s.blocks.Pairwise fun a b => a.frame < b.frame) {k : Int} (hk : k ≠ 0) :
    (if s.advanceBlockTarget k < lowestBlock then none
      else s.blocks[(s.advanceBlockTarget k).toNat]?) =
      blockFrom s.blocks s.playback.currentFrame k := by
  obtain ⟨after, hsplit, hindex, hafter⟩ :=
    split_at_frame s.playback.currentScript (hs.imp le_of_lt) s.playback.currentFrame
  have hbefore : ∀ b ∈ below frame s.playback.currentFrame
      s.playback.currentScript.blocks, b.frame < s.playback.currentFrame :=
    fun b hb => of_decide_eq_true (mem_filter.mp hb).2
  generalize below frame s.playback.currentFrame s.playback.currentScript.blocks =
    before at hsplit hindex hbefore
  have hblocks : s.blocks = before ++ after := hsplit
  have hnumber : s.playback.getBlockNumber (-1) = before.length := hindex
  have hcurrent : s.playback.getCurrentBlock (-1) = after[0]? := by
    rw [PlaybackInfo.getCurrentBlock, hnumber, hsplit, getElem?_append_right le_rfl, Nat.sub_self]
  have htarget : s.advanceBlockTarget k = before.length +
      (if (after[0]?.any fun b => decide (b.frame ≠ s.playback.currentFrame)) ∧ 0 < k then k - 1
        else k) := by
    unfold advanceBlockTarget
    rw [hcurrent, hnumber]
    cases after[0]? with
    | none => rw [if_neg fun h => Bool.false_ne_true h.1]
    | some b =>
      simp only [Option.any_some, decide_eq_true_eq]
      split
      · omega
      · rfl
  rw [hblocks] at hs ⊢
  obtain ⟨-, hsorted, -⟩ := pairwise_append.mp hs
  rw [show ((lowestBlock : ℕ) : Int) = 0 from rfl]
  rcases lt_or_gt_of_ne hk with hneg | hpos
  · have hback : s.advanceBlockTarget k = before.length + k := by
      rw [htarget, if_neg fun h => not_lt.mpr hneg.le h.2]
    rw [hback, blockFrom_of_neg hbefore hafter hneg]
    split
    · rfl
    · rw [getElem?_append_left (by omega)]
  · cases after with
    | nil =>
      have hnone : before.filter (fun b => decide (s.playback.currentFrame < b.frame)) = [] :=
        filter_eq_nil_iff.mpr fun b hb => by simpa using (hbefore b hb).le
      have hahead : s.advanceBlockTarget k = before.length + k := by
        rw [htarget, if_neg fun h => Bool.false_ne_true h.1]
      rw [blockFrom, if_pos hpos, hahead, if_neg (by omega), append_nil, hnone,
        getElem?_eq_none (by omega)]
      rfl
    | cons b after =>
      have hahead : s.advanceBlockTarget k = before.length +
          (if b.frame ≠ s.playback.currentFrame then k - 1 else k) := by
        rw [htarget]
        simp only [getElem?_cons_zero, Option.any_some, decide_eq_true_eq, hpos, and_true]
      rw [blockFrom_of_pos hbefore (hafter b mem_cons_self)
        (pairwise_cons.mp hsorted).1 hpos, hahead]
      generalize hoff : (if b.frame ≠ s.playback.currentFrame then k - 1 else k) = offset
      have hoffset : 0 ≤ offset := by
        rw [← hoff]
        split <;> omega
      rw [if_neg (by omega), getElem?_append_right (by omega)]
      congr 1
      omega

/-- **Advancing by blocks.**  In a script with increasing frames `tas_script_advance_block k` hands to
`Generic_Advance` the frame of the `k`-th block after the current frame, for a negative `k` that of
the `-k`-th block before it; if there is none it says so and leaves the session as it was.  While a
script is running it does nothing.
(tas/script_playback.cpp:650-680, libtasquake/src/script_playback.cpp:12-33) -/
theorem scriptAdvanceBlock_moves_by_blocks (host : Host F) (env : HostEnv) (s : Session F) (k : Int)
    (hs : s.blocks.Pairwise fun a b => a.frame < b.frame) (hk : k ≠ 0) :
    (s.playback.scriptRunning = true →
      s.advanceBlockResult k = .error (str "Can't advance while script still running.\n") ∧
        scriptAdvanceBlock host env s k = s) ∧
    (s.playback.scriptRunning = false →
      match blockFrom s.blocks s.playback.currentFrame k with
      | some block =>
        s.advanceBlockResult k = .ok block.frame ∧
          scriptAdvanceBlock host env s k = genericAdvance host env s block.frame
      | none =>
        s.advanceBlockResult k = .error (str "Tried to move to block " ++
            decimalInt (s.advanceBlockTarget k) ++ str ", which is out of bounds!\n") ∧
          scriptAdvanceBlock host env s k = s) := by
  rw [scriptAdvanceBlock_eq]
  constructor
  · intro hrunning
    have hresult : s.advanceBlockResult k =
        .error (str "Can't advance while script still running.\n") := by
      rw [advanceBlockResult, if_pos hrunning]
    rw [hresult]
    exact ⟨rfl, rfl⟩
  · intro hstopped
    have hrunning : ¬ s.playback.scriptRunning = true := by
      rw [hstopped]
      exact Bool.false_ne_true
    rw [← getElem?_advanceBlockTarget hs hk]
    unfold advanceBlockResult
    simp only [if_neg hrunning]
    cases (if s.advanceBlockTarget k < lowestBlock then none
      else s.blocks[(s.advanceBlockTarget k).toNat]?) with
    | none => exact ⟨rfl, rfl⟩
    | some block => exact ⟨rfl, rfl⟩

/-- From frame 0, two blocks on is the second block, and there is no block one back. -/
theorem scriptAdvanceBlock_moves_both_ways :
    exampleSession.advanceBlockResult 2 = .ok 100 ∧
      scriptAdvanceBlock exampleHost (exampleEnv .disconnected) exampleSession (-1) =
        exampleSession := by
  have moves := fun k => scriptAdvanceBlock_moves_by_blocks exampleHost (exampleEnv .disconnected)
    exampleSession k (by decide)
  constructor
  · exact ((moves 2 (by decide)).2 rfl).1
  · have back := (moves (-1) (by decide)).2 rfl
    exact back.2

end TASQuake.Analysis.PlaybackTargets
