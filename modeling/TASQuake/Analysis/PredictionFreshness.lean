import TASQuake.Analysis.SavestateNumbers
import TASQuake.Analysis.ScriptUpdate

/-!
# Which script a prediction line comes from

The number of a request is never changed, so every response is taken for one to the last request.
In a run in which no response to a request from before the last edit arrives after a newer request
(`Fresh`), and in which the client recognises every change of the script, the line shown comes from
the script as it was last edited (`ComputedFrom`).  The client overlooks a change that does not show
in the text of a block, and savestates made with blocks since removed from the end of the script.
-/

namespace TASQuake.Analysis.PredictionFreshness

open Lib PredictionClient PredictionSystem TASScript FrameBlock PredictionServer SortedMap List
open ScriptUpdate (LookAlike StoppedAt compareBlocks_cases)

variable {F V : Type}

/-! ## Lines computed from a script -/

/-- The world after playing the blocks from the beginning up to a frame. -/
def played (blocks : List (FrameBlock F)) (frame : Int) : World F :=
  (range frame.toNat).map fun k : ℕ => executedAt blocks (k : Int)

theorem played_succ (blocks : List (FrameBlock F)) {frame : Int} (h : 0 ≤ frame) :
    played blocks (frame + 1) = played blocks frame ++ [executedAt blocks frame] := by
  have hsucc : (frame + 1).toNat = frame.toNat + 1 := by omega
  have hcast : (frame.toNat : Int) = frame := by omega
  unfold played
  rw [hsucc, range_succ, map_append, map_singleton, hcast]

/-- The points and block indices were recorded on the frames given. -/
def RecordedOn (game : Game F V) (blocks : List (FrameBlock F)) (entity : Int) (frames : List Int)
    (data : PredictionData V) : Prop :=
  data.points = frames.map (fun f => game.origin (played blocks f) entity) ∧
    data.fbdata = frames.flatMap fun f => (blockIndexAt blocks f).toList

/-- The points and block indices were recorded while the blocks were played. -/
def ComputedFrom (game : Game F V) (blocks : List (FrameBlock F)) (data : PredictionData V) :
    Prop :=
  ∃ entity frames, RecordedOn game blocks entity frames data

theorem RecordedOn.nil (game : Game F V) (blocks : List (FrameBlock F)) (entity : Int)
    {data : PredictionData V} (hpoints : data.points = []) (hfb : data.fbdata = []) :
    RecordedOn game blocks entity [] data := ⟨hpoints, hfb⟩

/-! ## Applying changes -/

section ApplyChanges

variable {ostream : F → Str}

/-- `ApplyChanges` makes the one list of blocks into the other, and no savestate that it keeps
is out of date. -/
structure Recognises (ostream : F → Str) (old new : List (FrameBlock F)) : Prop where
  nonempty : new ≠ []
  ordered : Ordered new
  /-- blocks that look the same are the same -/
  faithful : ∀ p ∈ old.zip new, sameBlock ostream p.1 p.2 = true → p.1 = p.2
  /-- blocks are not only removed from the end -/
  notTruncated : old.length ≤ new.length ∨
    ∃ p ∈ old.zip new, sameBlock ostream p.1 p.2 = false

instance [DecidableEq F] (ostream : F → Str) (old new : List (FrameBlock F)) :
    Decidable (Recognises ostream old new) :=
  have : Decidable (KeySorted frame new) :=
    inferInstanceAs (Decidable (List.Pairwise _ new))
  decidable_of_iff
    (new ≠ [] ∧ (KeySorted frame new ∧ ∀ b ∈ new, 0 ≤ b.frame) ∧
      (∀ p ∈ old.zip new, sameBlock ostream p.1 p.2 = true → p.1 = p.2) ∧
      (old.length ≤ new.length ∨ ∃ p ∈ old.zip new, sameBlock ostream p.1 p.2 = false))
    ⟨fun ⟨h, ⟨hs, hn⟩, hf, ht⟩ => ⟨h, ⟨hs, hn⟩, hf, ht⟩,
      fun ⟨h, ⟨hs, hn⟩, hf, ht⟩ => ⟨h, ⟨hs, hn⟩, hf, ht⟩⟩

theorem eq_take_of_zip {α : Type} {old new : List α} (hlen : old.length ≤ new.length)
    (h : ∀ p ∈ old.zip new, p.1 = p.2) : old = new.take old.length := by
  induction old generalizing new with
  | nil => simp
  | cons a old ih =>
    cases new with
    | nil => simp at hlen
    | cons b new =>
      have hcons := forall_mem_cons.mp h
      rw [length_cons, take_succ_cons, ← ih (by simpa using hlen) hcons.2]
      exact congrArg (· :: old) hcons.1

variable {new old : List (FrameBlock F)}

theorem kept_eq {keptOld keptNew restOld restNew : List (FrameBlock F)} {a b : FrameBlock F}
    (h : StoppedAt ostream old new keptOld keptNew a b restOld restNew)
    (hfaithful : ∀ p ∈ old.zip new, sameBlock ostream p.1 p.2 = true → p.1 = p.2) :
    keptOld = keptNew := by
  have hzip : ∀ p ∈ keptOld.zip keptNew, p.1 = p.2 := by
    intro p hp
    apply hfaithful p
    · rw [h.old_eq, h.new_eq, zip_append h.length_eq]
      exact mem_append_left _ hp
    · exact h.alike p hp
  have htake := eq_take_of_zip h.length_eq.le hzip
  rwa [h.length_eq, take_length] at htake

/-- The blocks kept are common to both lists, and those dropped are not before the frame
reported. -/
theorem compareBlocks_spec (first : Int) (hold : KeySorted frame old) (hnew : KeySorted frame new)
    (hfaithful : ∀ p ∈ old.zip new, sameBlock ostream p.1 p.2 = true → p.1 = p.2)
    (htruncated : old.length ≤ new.length ∨ ∃ p ∈ old.zip new, sameBlock ostream p.1 p.2 = false)
    (hfirst : (∀ p ∈ old.zip new, sameBlock ostream p.1 p.2 = true) → ∀ b ∈ new.drop old.length, first ≤ b.frame) :
    let res := compareBlocks ostream first old new
    old.take res.1 = new.take res.1 ∧ (∀ b ∈ old.drop res.1, res.2 ≤ b.frame) ∧
      ∀ b ∈ new.drop res.1, res.2 ≤ b.frame := by
  obtain ⟨halike, heq⟩ | ⟨keptOld, keptNew, a, b, restOld, restNew, hstop, heq⟩ :=
    compareBlocks_cases ostream first old new
  · have hlen : old.length ≤ new.length := by
      rcases htruncated with hlen | ⟨p, hp, hdiffer⟩
      · exact hlen
      · exact absurd ((halike p hp).symm.trans hdiffer) nofun
    simp only [heq, Nat.min_eq_left hlen, take_length, drop_length]
    exact ⟨eq_take_of_zip hlen fun p hp => hfaithful p hp (halike p hp), nofun, hfirst halike⟩
  · obtain rfl := kept_eq hstop hfaithful
    obtain ⟨rfl, rfl, -, -, -⟩ := hstop
    -- the frame reported is the lesser of the two blocks that differ
    have hrestOld := pairwise_cons.mp (keySorted_append.mp hold).2.1
    have hrestNew := pairwise_cons.mp (keySorted_append.mp hnew).2.1
    simp only [heq, take_left, drop_left, forall_mem_cons]
    refine ⟨trivial, ⟨min_le_left _ _, fun c hc => ?_⟩, min_le_right _ _, fun c hc => ?_⟩
    · exact (min_le_left _ _).trans (hrestOld.1 c hc)
    · exact (min_le_right _ _).trans (hrestNew.1 c hc)

/-- Two lists that agree up to a position and have no block before a frame after it are played
alike up to this frame. -/
theorem played_congr {n : ℕ} {changed frame : Int} (htake : old.take n = new.take n)
    (hold : ∀ b ∈ old.drop n, changed ≤ b.frame) (hnew : ∀ b ∈ new.drop n, changed ≤ b.frame)
    (hframe : frame ≤ changed) : played old frame = played new frame := by
  have hsplit (blocks : List (FrameBlock F)) (hdrop : ∀ b ∈ blocks.drop n, changed ≤ b.frame)
      {k : Int} (hk : k < changed) :
      executedAt blocks k = executedAt (blocks.take n) k := by
    have hnone : executedAt (blocks.drop n) k = [] := by
      refine filter_eq_nil_iff.mpr fun b hb => ?_
      have := hdrop b hb
      simp only [decide_eq_true_eq]
      omega
    conv_lhs => rw [← take_append_drop n blocks]
    unfold executedAt at hnone ⊢
    rw [filter_append, hnone, append_nil]
  unfold played
  refine map_congr_left fun k hk => ?_
  have hk : (k : Int) < changed := by
    have := mem_range.mp hk
    omega
  rw [hsplit old hold hk, hsplit new hnew hk, htake]

theorem last_frame_le (h : Recognises ostream old new)
    (hall : ∀ p ∈ old.zip new, sameBlock ostream p.1 p.2 = true) :
    ∀ b ∈ new.drop old.length, lastBlockFrame old ≤ b.frame := by
  intro b hb
  unfold lastBlockFrame
  cases hlast : old.getLast? with
  | none => exact h.ordered.nonneg b (mem_of_mem_drop hb)
  | some block =>
    have hlen : old.length ≤ new.length := by
      have := length_pos_of_mem hb
      rw [length_drop] at this
      omega
    have htake := eq_take_of_zip hlen fun p hp => h.faithful p hp (hall p hp)
    have hmem := htake ▸ mem_of_getLast? hlast
    have hsorted := h.ordered.sorted
    rw [← take_append_drop old.length new] at hsorted
    exact (keySorted_append.mp hsorted).2.2 block hmem b hb

theorem applyChanges_spec {old new : TASScript F} (hold : KeySorted frame old.blocks)
    (h : Recognises ostream old.blocks new.blocks) :
    (old.applyChanges ostream new).1.blocks = new.blocks ∧
      ∀ frame ≤ (old.applyChanges ostream new).2,
        played old.blocks frame = played new.blocks frame := by
  obtain ⟨htake, hdrop, hdrop'⟩ := compareBlocks_spec (lastBlockFrame old.blocks) hold
    h.ordered.sorted h.faithful h.notTruncated (last_frame_le h)
  refine ⟨?_, fun frame hframe => played_congr htake hdrop hdrop' hframe⟩
  show old.blocks.take _ ++ new.blocks.drop _ = new.blocks
  rw [htake, take_append_drop]

end ApplyChanges

/-! ## The client -/

/-- What the client knows while it plays a script. -/
structure ClientInv (game : Game F V) (c : PredictionClient F V) : Prop where
  sorted : KeySorted frame c.script.blocks
  saved : ∀ e ∈ c.savestates.savestateMap.entries,
    e.2.frame = e.1 ∧ e.2.snapshot = played c.script.blocks e.1
  world : c.playing = true →
    0 ≤ c.currentFrame ∧ c.world = played c.script.blocks c.currentFrame
  recorded : c.requestFinished = false →
    ∃ frames, RecordedOn game c.script.blocks c.predictionEntity frames c.data

theorem clientInv_init (game : Game F V) : ClientInv game ({} : PredictionClient F V) where
  sorted := List.Pairwise.nil
  saved := nofun
  world := nofun
  recorded := nofun

variable {game : Game F V} {c : PredictionClient F V}

theorem ClientInv.receiveIpc (h : ClientInv game c) {msg : PredictRequest F}
    (hmsg : Recognises game.ostream c.script.blocks msg.script.blocks) :
    ClientInv game (c.receiveIpc game msg) ∧
      (c.receiveIpc game msg).script.blocks = msg.script.blocks := by
  obtain ⟨hblocks, hplayed⟩ := applyChanges_spec h.sorted hmsg
  unfold PredictionClient.receiveIpc
  generalize c.script.applyChanges game.ostream msg.script = res at hblocks hplayed
  obtain ⟨script, changed⟩ := res
  simp only at hblocks hplayed ⊢
  have hne : script.blocks.isEmpty = false := by
    rw [hblocks]
    simpa using hmsg.nonempty
  rw [hne]
  refine ⟨⟨?_, ?_, nofun, ?_⟩, hblocks⟩
  · show KeySorted frame script.blocks
    rw [hblocks]
    exact hmsg.ordered.sorted
  · intro e he
    obtain ⟨hmem, hle⟩ := mem_eraseAbove.mp he
    obtain ⟨hframe, hsnap⟩ := h.saved e hmem
    refine ⟨hframe, ?_⟩
    show e.2.snapshot = played script.blocks e.1
    rw [hsnap, hblocks]
    exact hplayed e.1 (hle.trans (min_le_left _ _))
  · exact fun _ => ⟨[], .nil game script.blocks msg.entity rfl rfl⟩

theorem mem_of_loadState {γ : Type} {m : Savestates γ} {enabled : Bool} {frame : Int}
    {elem : Savestate γ} (h : m.loadState enabled frame = some elem) :
    ∃ k, (k, elem) ∈ m.savestateMap.entries := by
  unfold Savestates.loadState at h
  split at h
  · exact absurd h nofun
  · split at h
    · next e he =>
      cases h
      exact ⟨frame, find?_eq_some_iff.mp he⟩
    · obtain ⟨e, he, rfl⟩ := Option.map_eq_some_iff.mp h
      exact ⟨e.1, takeWhile_subset _ (mem_of_getLast? he)⟩

theorem ClientInv.start (h : ClientInv game c) (enabled : Bool) :
    ClientInv game (c.start enabled) := by
  unfold PredictionClient.start
  split
  · exact h
  · simp only
    split
    · next elem hload =>
      obtain ⟨k, hmem⟩ := mem_of_loadState hload
      obtain ⟨hframe, hsnap⟩ := h.saved _ hmem
      split
      · exact ⟨h.sorted, h.saved, fun _ => ⟨le_rfl, rfl⟩, h.recorded⟩
      · next hneg =>
        refine ⟨h.sorted, h.saved, fun _ => ⟨not_lt.mp hneg, ?_⟩, h.recorded⟩
        rw [hsnap, hframe]
    · exact ⟨h.sorted, h.saved, fun _ => ⟨le_rfl, rfl⟩, h.recorded⟩

theorem ClientInv.record (h : ClientInv game c) (hplaying : c.playing = true) :
    ClientInv game (c.record game) := by
  unfold PredictionClient.record
  split
  · refine ⟨h.sorted, h.saved, h.world, fun hfin => ?_⟩
    obtain ⟨frames, hpoints, hfb⟩ := h.recorded hfin
    refine ⟨frames ++ [c.currentFrame], ?_, ?_⟩
    · show c.data.points ++ [game.origin c.world c.predictionEntity] = _
      rw [hpoints, (h.world hplaying).2, map_append, map_singleton]
    · show c.data.fbdata ++ (blockIndexAt c.script.blocks c.currentFrame).toList = _
      rw [hfb, flatMap_append, flatMap_singleton]
  · exact h

theorem record_frame (game : Game F V) (c : PredictionClient F V) :
    (c.record game).script = c.script ∧ (c.record game).sent = c.sent := by
  unfold PredictionClient.record
  split <;> exact ⟨rfl, rfl⟩

theorem ClientInv.frameHook (h : ClientInv game c) (unpaused connected predictReal : Bool) :
    ClientInv game (c.frameHook game unpaused connected predictReal).1 ∧
      (c.frameHook game unpaused connected predictReal).1.script = c.script ∧
      (c.frameHook game unpaused connected predictReal).1.sent = c.sent ∧
      ∀ msg ∈ (c.frameHook game unpaused connected predictReal).2,
        msg.sent = c.sent ∧ ComputedFrom game c.script.blocks msg.data := by
  have hrecord : ∃ d : PredictionClient F V, d =
      (if c.playing && unpaused && (predictReal || !c.requestFinished) && connected then
        c.record game else c) ∧ ClientInv game d ∧ d.script = c.script ∧ d.sent = c.sent := by
    refine ⟨_, rfl, ?_⟩
    split
    · next hcond =>
      have hplaying : c.playing = true := by
        simp only [Bool.and_eq_true] at hcond
        exact hcond.1.1.1
      exact ⟨h.record hplaying, record_frame game c⟩
    · exact ⟨h, rfl, rfl⟩
  obtain ⟨d, hd, hinv, hscript, hsent⟩ := hrecord
  unfold PredictionClient.frameHook
  simp only [← hd]
  split
  · next hcond =>
    have hfin : d.requestFinished = false := by
      simp only [Bool.and_eq_true, Bool.not_eq_true'] at hcond
      exact hcond.1
    refine ⟨⟨hinv.sorted, hinv.saved, hinv.world, nofun⟩, hscript, hsent, ?_⟩
    rintro msg ⟨⟩
    obtain ⟨frames, hframes⟩ := hinv.recorded hfin
    exact ⟨hsent, d.predictionEntity, frames, hscript ▸ hframes⟩
  · exact ⟨hinv, hscript, hsent, nofun⟩

theorem ClientInv.advance (h : ClientInv game c) (unpaused : Bool) :
    ClientInv game (c.advance unpaused) ∧
      (c.advance unpaused).script = c.script ∧ (c.advance unpaused).sent = c.sent := by
  unfold PredictionClient.advance
  split
  · next hcond =>
    obtain ⟨hnonneg, hworld⟩ := h.world (Bool.and_eq_true_iff.mp hcond).1
    refine ⟨⟨h.sorted, h.saved, fun _ => ⟨by show 0 ≤ c.currentFrame + 1; omega, ?_⟩, h.recorded⟩,
      rfl, rfl⟩
    rw [hworld, ← played_succ c.script.blocks hnonneg]
  · exact ⟨h, rfl, rfl⟩

theorem ClientInv.createSavestate (h : ClientInv game c) (mapName : Str) (force : Bool) :
    ClientInv game (c.createSavestate mapName force) := by
  refine ⟨h.sorted, fun e he => ?_, h.world, h.recorded⟩
  cases hplaying : c.playing with
  | false =>
    -- nothing is saved unless a script is played
    have hsame : c.savestates.createSavestate c.playing mapName c.world c.currentFrame force =
        c.savestates := by
      rw [hplaying]
      rfl
    exact h.saved e (hsame ▸ he)
  | true =>
    rcases SavestateNumbers.createSavestate_cases c.savestates c.playing mapName c.world
        c.currentFrame force with heq | heq
    · exact h.saved e (heq ▸ he)
    · unfold PredictionClient.createSavestate at he
      rw [heq] at he
      rcases mem_put.mp he with rfl | ⟨hmem, -⟩
      · exact ⟨rfl, (h.world hplaying).2⟩
      · exact h.saved e hmem

/-! ## Both games -/

/-- Nothing that was requested after the last edit concerns another script than the one that was
edited last. -/
structure Inv (game : Game F V) (s : PredictionSystem F V) : Prop where
  client : ClientInv game s.client
  lastEdited : s.server.playback.lastEdited ≤ s.clock
  lastRequest : s.server.lastRequest ≤ s.clock
  currentLineTime : s.server.currentLineTime ≤ s.clock
  requests : ∀ msg ∈ s.toClient, msg.sent ≤ s.clock ∧
    (s.server.playback.lastEdited < msg.sent →
      msg.script.blocks = s.server.playback.currentScript.blocks)
  answering : s.client.sent ≤ s.clock ∧
    (s.server.playback.lastEdited < s.client.sent →
      s.client.script.blocks = s.server.playback.currentScript.blocks)
  responses : ∀ msg ∈ s.toServer, msg.sent ≤ s.clock ∧
    (s.server.playback.lastEdited < msg.sent →
      ComputedFrom game s.server.playback.currentScript.blocks msg.data)
  line : s.server.playback.lastEdited ≤ s.server.currentLineTime →
    ComputedFrom game s.server.playback.currentScript.blocks s.server.data

/-- The condition on an event: the client recognises the changes in the script that it receives,
and a response delivered after a request that was made since the last edit answers such a
request. -/
def Fresh (game : Game F V) (s : PredictionSystem F V) : PredictionEvent F → Prop
  | .receive => ∀ msg ∈ s.toClient.head?,
      Recognises game.ostream s.client.script.blocks msg.script.blocks
  | .deliver => ∀ msg ∈ s.toServer.head?,
      s.server.lastRequest < s.server.playback.lastEdited ∨
        s.server.playback.lastEdited < msg.sent
  | _ => True

instance [DecidableEq F] (game : Game F V) (s : PredictionSystem F V) :
    ∀ event, Decidable (Fresh game s event)
  | .receive => inferInstanceAs (Decidable (∀ msg ∈ s.toClient.head?, _))
  | .deliver => inferInstanceAs (Decidable (∀ msg ∈ s.toServer.head?, _))
  | .edit _ => .isTrue trivial
  | .move _ _ _ => .isTrue trivial
  | .request _ _ => .isTrue trivial
  | .serverFrame _ _ _ => .isTrue trivial
  | .start _ => .isTrue trivial
  | .clientFrame _ _ _ => .isTrue trivial
  | .savestate _ _ => .isTrue trivial

theorem inv_init (game : Game F V) : Inv game ({} : PredictionSystem F V) where
  client := clientInv_init game
  lastEdited := le_rfl
  lastRequest := le_rfl
  currentLineTime := le_rfl
  requests := nofun
  answering := ⟨le_rfl, fun h => absurd h (lt_irrefl 0)⟩
  responses := nofun
  line := fun _ => ⟨0, [], .nil game [] 0 rfl rfl⟩

variable {s : PredictionSystem F V}

theorem Inv.edit (h : Inv game s) (script : TASScript F) :
    Inv game { s with server := s.server.edit script (s.clock + 1), clock := s.clock + 1 } := by
  have hold {t : ℕ} (ht : t ≤ s.clock) {p : Prop} (hlt : s.clock + 1 < t) : p := by omega
  exact {
    client := h.client
    lastEdited := le_rfl
    lastRequest := h.lastRequest.trans (Nat.le_succ _)
    currentLineTime := h.currentLineTime.trans (Nat.le_succ _)
    requests := fun msg hmsg =>
      ⟨(h.requests msg hmsg).1.trans (Nat.le_succ _), hold (h.requests msg hmsg).1⟩
    answering := ⟨h.answering.1.trans (Nat.le_succ _), hold h.answering.1⟩
    responses := fun msg hmsg =>
      ⟨(h.responses msg hmsg).1.trans (Nat.le_succ _), hold (h.responses msg hmsg).1⟩
    line := fun hle => absurd (h.currentLineTime.trans_lt (Nat.lt_succ_self _)) (not_lt.mpr hle) }

theorem Inv.request (h : Inv game s) (connected : Bool) (entity : Int) :
    Inv game (s.request connected entity) := by
  have hlater {t : ℕ} (ht : t ≤ s.clock) : t ≤ s.clock + 1 := ht.trans (Nat.le_succ _)
  have hcleared : ComputedFrom game s.server.playback.currentScript.blocks
      { s.server.data with points := [], fbdata := [] } :=
    ⟨0, [], .nil game _ 0 rfl rfl⟩
  have hrequests : ∀ msg ∈ s.toClient, msg.sent ≤ s.clock + 1 ∧
      (s.server.playback.lastEdited < msg.sent →
        msg.script.blocks = s.server.playback.currentScript.blocks) :=
    fun msg hmsg => ⟨hlater (h.requests msg hmsg).1, (h.requests msg hmsg).2⟩
  have hresponses : ∀ msg ∈ s.toServer, msg.sent ≤ s.clock + 1 ∧
      (s.server.playback.lastEdited < msg.sent →
        ComputedFrom game s.server.playback.currentScript.blocks msg.data) :=
    fun msg hmsg => ⟨hlater (h.responses msg hmsg).1, (h.responses msg hmsg).2⟩
  cases connected with
  | false =>
    exact {
      client := h.client
      lastEdited := hlater h.lastEdited
      lastRequest := hlater h.lastRequest
      currentLineTime := hlater h.currentLineTime
      requests := by
        intro msg hmsg
        exact hrequests msg (by simpa [PredictionSystem.request, PredictionServer.request] using hmsg)
      answering := ⟨hlater h.answering.1, h.answering.2⟩
      responses := hresponses
      line := fun _ => hcleared }
  | true =>
    exact {
      client := h.client
      lastEdited := hlater h.lastEdited
      lastRequest := le_rfl
      currentLineTime := hlater h.currentLineTime
      requests := by
        intro msg hmsg
        rcases mem_append.mp hmsg with hmsg | hmsg
        · exact hrequests msg hmsg
        · cases mem_singleton.mp hmsg
          exact ⟨le_rfl, fun _ => rfl⟩
      answering := ⟨hlater h.answering.1, h.answering.2⟩
      responses := hresponses
      line := fun _ => hcleared }

theorem Inv.receive (h : Inv game s) (hfresh : Fresh game s .receive) :
    Inv game (s.receive game) := by
  unfold PredictionSystem.receive
  cases hqueue : s.toClient with
  | nil => exact h
  | cons msg rest =>
    obtain ⟨hclient, hblocks⟩ := h.client.receiveIpc (hfresh msg (by rw [hqueue]; rfl))
    obtain ⟨hsent, hscript⟩ := h.requests msg (by rw [hqueue]; exact mem_cons_self)
    have hmsg : (s.client.receiveIpc game msg).sent = msg.sent := by
      unfold PredictionClient.receiveIpc
      simp only
      split <;> rfl
    exact { h with
      client := hclient
      requests := fun m hm => h.requests m (by rw [hqueue]; exact mem_cons_of_mem _ hm)
      answering := by
        rw [hmsg, hblocks]
        exact ⟨hsent, hscript⟩ }

theorem Inv.clientFrame (h : Inv game s) (unpaused connected predictReal : Bool) :
    Inv game (s.clientFrame game unpaused connected predictReal) := by
  obtain ⟨hhook, hscript, hsent, hmsgs⟩ := h.client.frameHook unpaused connected predictReal
  unfold PredictionSystem.clientFrame
  generalize s.client.frameHook game unpaused connected predictReal = res at hhook hscript hsent hmsgs
  obtain ⟨client, msg⟩ := res
  obtain ⟨hadvance, hscript', hsent'⟩ := hhook.advance unpaused
  refine { h with client := hadvance, answering := ?_, responses := ?_ }
  · show (client.advance unpaused).sent ≤ s.clock ∧
      (_ < (client.advance unpaused).sent → (client.advance unpaused).script.blocks = _)
    rw [hsent', hsent, hscript', hscript]
    exact h.answering
  · intro m hm
    rcases mem_append.mp hm with hm | hm
    · exact h.responses m hm
    · obtain ⟨hmsent, hdata⟩ := hmsgs m (Option.mem_toList.mp hm)
      rw [hmsent]
      refine ⟨h.answering.1, fun hlt => ?_⟩
      rw [← h.answering.2 hlt]
      exact hdata

theorem Inv.deliver (h : Inv game s) (hfresh : Fresh game s .deliver) : Inv game s.deliver := by
  unfold PredictionSystem.deliver
  cases hqueue : s.toServer with
  | nil => exact h
  | cons msg rest =>
    have hrest : ∀ m ∈ rest, m.sent ≤ s.clock ∧ (s.server.playback.lastEdited < m.sent →
        ComputedFrom game s.server.playback.currentScript.blocks m.data) :=
      fun m hm => h.responses m (by rw [hqueue]; exact mem_cons_of_mem _ hm)
    show Inv game { s with server := s.server.readResponse msg, toServer := rest }
    by_cases hid : msg.requestId ≠ s.server.lastRequestId
    · rw [readResponse, if_pos hid]
      exact { h with responses := hrest }
    · rw [readResponse, if_neg hid]
      refine { h with currentLineTime := h.lastRequest, responses := hrest, line := fun hle => ?_ }
      rcases hfresh msg (by rw [hqueue]; rfl) with hold | hnew
      · -- no request has been made since the last edit, so the line stays out of date
        exact absurd hold (not_lt.mpr hle)
      · exact (h.responses msg (by rw [hqueue]; exact mem_cons_self)).2 hnew

theorem inv_step (s : PredictionSystem F V) (event : PredictionEvent F) (s' : PredictionSystem F V)
    (h : Inv game s) (hfresh : Fresh game s event) (hs' : s.step game event = some s') :
    Inv game s' := by
  cases event with
  | edit script =>
    cases hs'
    exact h.edit script
  | move frame endOffset maxLength =>
    cases hs'
    exact { h with }
  | request connected entity =>
    cases hs'
    exact h.request connected entity
  | serverFrame paused connected entity =>
    cases hs'
    split
    · exact h.request connected entity
    · exact h
  | receive =>
    cases hs'
    exact h.receive hfresh
  | start savestateEnabled =>
    cases hs'
    have hkeep : (s.client.start savestateEnabled).sent = s.client.sent ∧
        (s.client.start savestateEnabled).script = s.client.script := by
      unfold PredictionClient.start
      split
      · exact ⟨rfl, rfl⟩
      · simp only
        split
        · split <;> exact ⟨rfl, rfl⟩
        · exact ⟨rfl, rfl⟩
    refine { h with client := h.client.start savestateEnabled, answering := ?_ }
    rw [hkeep.1, hkeep.2]
    exact h.answering
  | clientFrame unpaused connected predictReal =>
    cases hs'
    exact h.clientFrame unpaused connected predictReal
  | savestate mapName force =>
    cases hs'
    exact { h with client := h.client.createSavestate mapName force }
  | deliver =>
    cases hs'
    exact h.deliver hfresh

/-- In every run of fresh events, whenever the server has a line, its points and block indices
were computed by the client from the script as it was last edited. -/
theorem fresh_runs_show_current_line (game : Game F V) (events : List (PredictionEvent F))
    (s : PredictionSystem F V) (hfresh : Guarded (step game) (Fresh game) {} events)
    (hrun : run (step game) {} events = some s) (hline : s.server.hasLine = true) :
    ComputedFrom game s.server.playback.currentScript.blocks s.server.data := by
  have hinv := invariant_run inv_step (inv_init game) hfresh hrun
  refine hinv.line ?_
  unfold hasLine at hline
  simp only [Bool.and_eq_true, decide_eq_true_eq] at hline
  exact hline.1.1

/-! ## Lines from outdated scripts -/

/-- A game whose positions show the blocks executed.  It prints the last digit of a value no
more than the stream of the source prints the seventh. -/
def exampleGame : Game Int (List (FrameBlock Int)) :=
  { origin := fun world _ => world.flatten
    ostream := fun value => decimal (value.toNat / 10) }

/-- A block that sets the strafe yaw. -/
def yawBlock (frame value : Int) : FrameBlock Int :=
  { frame := frame, convars := OrderedMap.empty.put (str "tas_strafe_yaw") value }

theorem mem_of_computedFrom {blocks : List (FrameBlock Int)}
    {data : PredictionData (List (FrameBlock Int))} (h : ComputedFrom exampleGame blocks data)
    {point : List (FrameBlock Int)} (hpoint : point ∈ data.points) {b : FrameBlock Int}
    (hb : b ∈ point) : b ∈ blocks := by
  obtain ⟨entity, frames, hpoints, -⟩ := h
  rw [hpoints] at hpoint
  obtain ⟨f, -, rfl⟩ := mem_map.mp hpoint
  obtain ⟨executed, hexecuted, hb⟩ := mem_flatten.mp hb
  obtain ⟨k, -, rfl⟩ := mem_map.mp hexecuted
  exact mem_of_mem_filter hb

/-- The server requests a line, and the client plays a number of frames to compute it. -/
def predict (frames : ℕ) : List (PredictionEvent Int) :=
  [.serverFrame true true 1, .receive, .start true] ++
    replicate frames (.clientFrame true true false)

/-- A script of one block is edited, and its line arrives. -/
def firstLine : List (PredictionEvent Int) :=
  [.move 0 0 72, .edit { blocks := [yawBlock 0 10] }] ++ predict 2 ++ [.deliver]

theorem fresh_runs_show_current_line_firstLine :
    ∃ s, run (step exampleGame) {} firstLine = some s ∧
      s.server.hasLine = true ∧ s.server.data.points = [[], [yawBlock 0 10]] ∧
      ComputedFrom exampleGame s.server.playback.currentScript.blocks s.server.data := by
  have hfresh : Guarded (step exampleGame) (Fresh exampleGame) {} firstLine := by
    decide +kernel
  have hrun : ((run (step exampleGame) {} firstLine).map fun s =>
      (s.server.hasLine, s.server.data.points)) = some (true, [[], [yawBlock 0 10]]) := by
    decide +kernel
  obtain ⟨s, hs, hview⟩ := Option.map_eq_some_iff.mp hrun
  obtain ⟨hline, hpoints⟩ := Prod.mk.inj hview
  exact ⟨s, hs, hline, hpoints,
    fresh_runs_show_current_line exampleGame firstLine s hfresh hs hline⟩

/-- The response to the request for a script arrives after the script has been edited and the
line of the new one requested. -/
def staleResponse : List (PredictionEvent Int) :=
  [.move 0 0 72, .edit { blocks := [yawBlock 0 10] }] ++ predict 2 ++
    [.edit { blocks := [yawBlock 0 50] }, .serverFrame true true 1, .deliver]

/-- A value is changed by less than the text of the block shows. -/
def roundedChange : List (PredictionEvent Int) :=
  firstLine ++ [.edit { blocks := [yawBlock 0 11] }] ++ predict 2 ++ [.deliver]

/-- The blocks at the end of a script are removed after the client has made a savestate in
them. -/
def removedBlocks : List (PredictionEvent Int) :=
  [.move 0 0 72, .edit { blocks := [yawBlock 0 10, yawBlock 1 20, yawBlock 5 30] }] ++ predict 2 ++
    [.savestate [] true] ++ replicate 3 (.clientFrame true true false) ++
    [.deliver, .edit { blocks := [yawBlock 0 10] }, .move 3 0 72] ++ predict 3 ++ [.deliver]

/-- At the end of the run the server has a line that does not come from its script. -/
def ShowsOutdatedLine (events : List (PredictionEvent Int)) : Prop :=
  ∃ s, run (step exampleGame) {} events = some s ∧
    s.server.hasLine = true ∧
    ¬ ComputedFrom exampleGame s.server.playback.currentScript.blocks s.server.data

theorem showsOutdatedLine_of_foreign {events : List (PredictionEvent Int)}
    (hforeign : ((run (step exampleGame) {} events).any fun s =>
      s.server.hasLine && s.server.data.points.any fun point =>
        point.any fun b => decide (b ∉ s.server.playback.currentScript.blocks)) = true) :
    ShowsOutdatedLine events := by
  cases hs : run (step exampleGame) {} events with
  | none =>
    rw [hs] at hforeign
    exact absurd hforeign nofun
  | some s =>
    rw [hs, Option.any_some, Bool.and_eq_true] at hforeign
    refine ⟨s, hs, hforeign.1, fun hcomputed => ?_⟩
    obtain ⟨point, hpoint, hblock⟩ := any_eq_true.mp hforeign.2
    obtain ⟨b, hb, hnot⟩ := any_eq_true.mp hblock
    exact of_decide_eq_true hnot (mem_of_computedFrom hcomputed hpoint hb)

/-- Each of these runs ends with such a line. -/
theorem outdated_lines_are_shown :
    ShowsOutdatedLine staleResponse ∧ ShowsOutdatedLine roundedChange ∧
      ShowsOutdatedLine removedBlocks := by
  refine ⟨?_, ?_, ?_⟩
  · exact showsOutdatedLine_of_foreign (by decide +kernel)
  · exact showsOutdatedLine_of_foreign (by decide +kernel)
  · exact showsOutdatedLine_of_foreign (by decide +kernel)

end TASQuake.Analysis.PredictionFreshness
