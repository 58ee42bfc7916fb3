import TASQuake.Analysis.QueueTiming
import TASQuake.Analysis.ScriptRoundTrip
import TASQuake.Model.CommandQueue

/-!
# The way of a queued command to the console

A queued text passes through `CmdBuffer`, `cmd_text` and `line`.  `Fits` is the size that each step
needs, in terms of the state before it.  Nothing in the source checks it, and a script may hold a
command of any length.
-/

namespace TASQuake.Analysis.CommandBounds

open Lib QueueTiming Console Option List

/-- The room that the entries take in `CmdBuffer`, without the terminating NUL. -/
def roomFor (entries : List QueueEntry) : ℕ := (entries.map fun e => e.command.length + 1).sum

/-- The sizes with which a step is safe. -/
def Fits (s : Console) : ConsoleAction → Prop
  | .frame env => s.queue.afterFramesPaused = true ∨ dueEntries env s.queue = [] ∨
      s.cmdText.length + roomFor (dueEntries env s.queue) < cmdTextSize
  | .insertText text => cmdTextSize ≤ text.length ∨ text.length + s.cmdText.length ≤ cmdTextSize
  | .executeLine => lineBreak 0 s.cmdText < lineSize
  | _ => True

instance (s : Console) : ∀ action, Decidable (Fits s action)
  | .frame _ => inferInstanceAs (Decidable (_ ∨ _ ∨ _))
  | .insertText _ => inferInstanceAs (Decidable (_ ∨ _))
  | .executeLine => inferInstanceAs (Decidable (_ < _))
  | .addAfterframes _ _ _ => .isTrue trivial
  | .pauseAfterframes => .isTrue trivial
  | .unpauseAfterframes => .isTrue trivial
  | .clearAfterframes => .isTrue trivial
  | .addText _ => .isTrue trivial

/-- A step that returns and drops no queued text. -/
def Safe (s : Console) (action : ConsoleAction) : Prop :=
  ∃ s', s.step action = some s' ∧ s'.lost = s.lost

/-! ## The buffers -/

theorem length_textOf_reverse (entries : List QueueEntry) :
    (textOf entries.reverse).length = roomFor entries := by
  unfold textOf roomFor
  rw [length_flatMap, map_reverse, sum_reverse]
  simp [str]

theorem cbufAddText_eq (buffer text : Str) :
    cbufAddText buffer text =
      if buffer.length + text.length < cmdTextSize then some (buffer ++ text, true)
      else some (buffer, false) := by
  unfold cbufAddText szWrite
  by_cases h : buffer.length + text.length < cmdTextSize
  · rw [if_neg (not_le.mpr h), if_neg (not_lt.mpr h.le), if_pos h]
    rfl
  · rw [if_pos (not_lt.mp h), if_neg h]

theorem length_cbufAddText_le {buffer text buffer' : Str} {added : Bool}
    (hbuffer : buffer.length ≤ cmdTextSize) (h : cbufAddText buffer text = some (buffer', added)) :
    buffer'.length ≤ cmdTextSize := by
  rw [cbufAddText_eq] at h
  split at h
  · next hlt =>
    obtain ⟨rfl, -⟩ := Prod.mk.inj (some.inj h)
    rw [length_append]
    exact hlt.le
  · obtain ⟨rfl, -⟩ := Prod.mk.inj (some.inj h)
    exact hbuffer

theorem szWrite_eq (buffer data : Str) :
    szWrite buffer data =
      if buffer.length + data.length ≤ cmdTextSize then some (buffer ++ data) else none := by
  unfold szWrite
  by_cases h : buffer.length + data.length ≤ cmdTextSize
  · rw [if_neg (not_lt.mpr h), if_pos h]
  · rw [if_pos (not_le.mp h), if_neg h]

/-- `Cbuf_InsertText` puts the text before the buffer, if both have room; a text that is as long as
the buffer is dropped. -/
theorem cbufInsertText_eq (buffer text : Str) (hbuffer : buffer.length ≤ cmdTextSize) :
    cbufInsertText buffer text =
      if cmdTextSize ≤ text.length then some buffer
      else if text.length + buffer.length ≤ cmdTextSize then some (text ++ buffer)
      else none := by
  -- nothing is written back if the buffer was empty, which makes no difference
  have hback (added : Str) (hadded : added.length ≤ cmdTextSize) :
      (if buffer.isEmpty then some added else szWrite added buffer) = szWrite added buffer := by
    cases buffer with
    | nil => simp [szWrite_eq, hadded]
    | cons c rest => rfl
  unfold cbufInsertText
  rw [cbufAddText_eq, length_nil, Nat.zero_add, nil_append]
  by_cases hlong : cmdTextSize ≤ text.length
  · rw [if_pos hlong, if_neg (not_lt.mpr hlong), bind_some]
    dsimp only
    rw [hback [] (Nat.zero_le _), szWrite_eq, length_nil, Nat.zero_add, if_pos hbuffer, nil_append]
  · rw [if_neg hlong, if_pos (not_le.mp hlong), bind_some]
    dsimp only
    rw [hback text (not_le.mp hlong).le, szWrite_eq]

theorem length_cbufInsertText_le {buffer text buffer' : Str} (hbuffer : buffer.length ≤ cmdTextSize)
    (h : cbufInsertText buffer text = some buffer') : buffer'.length ≤ cmdTextSize := by
  rw [cbufInsertText_eq _ _ hbuffer] at h
  split at h
  · cases h
    exact hbuffer
  · split at h
    · next hle =>
      cases h
      rwa [length_append]
    · exact absurd h nofun

/-! ## Steps -/

theorem frame_eq (env : FilterEnv) (s : Console) (hpaused : s.queue.afterFramesPaused = false)
    (hdue : dueEntries env s.queue ≠ []) :
    s.frame env =
      if roomFor (dueEntries env s.queue) < bufferSize then
        some
          (if s.cmdText.length + roomFor (dueEntries env s.queue) < cmdTextSize then
            { s with
              queue := { s.queue with afterframesQueue := leftEntries env s.queue }
              cmdText := s.cmdText ++ textOf (dueEntries env s.queue).reverse }
          else
            { s with
              queue := { s.queue with afterframesQueue := leftEntries env s.queue }
              lost := s.lost ++ [textOf (dueEntries env s.queue).reverse] })
      else none := by
  unfold frame
  rw [getQueuedCommands_eq env s.queue hpaused, if_neg hdue, ← length_textOf_reverse]
  by_cases hroom : (textOf (dueEntries env s.queue).reverse).length < bufferSize
  · rw [if_pos hroom, if_pos hroom, bind_some]
    dsimp only
    rw [cbufAddText_eq]
    by_cases hlt : s.cmdText.length + (textOf (dueEntries env s.queue).reverse).length < cmdTextSize
    · rw [if_pos hlt, if_pos hlt]
      rfl
    · rw [if_neg hlt, if_neg hlt]
      rfl
  · rw [if_neg hroom, if_neg hroom]
    rfl

theorem frame_of_not_due (env : FilterEnv) (s : Console)
    (h : s.queue.afterFramesPaused = true ∨ dueEntries env s.queue = []) :
    ∃ q, s.frame env = some { s with queue := q } := by
  unfold frame
  cases hpaused : s.queue.afterFramesPaused with
  | true =>
    rw [getQueuedCommands_of_paused env s.queue hpaused]
    exact ⟨s.queue, rfl⟩
  | false =>
    have hdue := h.resolve_left (by rw [hpaused]; exact nofun)
    rw [getQueuedCommands_eq env s.queue hpaused, if_pos hdue]
    exact ⟨_, rfl⟩

theorem safe_frame_iff (env : FilterEnv) (s : Console) : Safe s (.frame env) ↔ Fits s (.frame env) := by
  show (∃ s', s.frame env = some s' ∧ s'.lost = s.lost) ↔ _ ∨ _ ∨ _
  by_cases h : s.queue.afterFramesPaused = true ∨ dueEntries env s.queue = []
  · obtain ⟨q, hq⟩ := frame_of_not_due env s h
    exact ⟨fun _ => or_assoc.mp (.inl h), fun _ => ⟨_, hq, rfl⟩⟩
  · obtain ⟨hpaused, hdue⟩ := not_or.mp h
    rw [frame_eq env s (Bool.eq_false_of_not_eq_true hpaused) hdue]
    have hiff : (s.queue.afterFramesPaused = true ∨ dueEntries env s.queue = [] ∨
        s.cmdText.length + roomFor (dueEntries env s.queue) < cmdTextSize) ↔
        s.cmdText.length + roomFor (dueEntries env s.queue) < cmdTextSize := by
      simp [hpaused, hdue]
    rw [hiff]
    constructor
    · rintro ⟨s', hs', hlost⟩
      by_contra hlt
      rw [if_neg hlt] at hs'
      split at hs'
      · cases hs'
        exact absurd hlost (by simp)
      · exact absurd hs' nofun
    · intro hlt
      have hroom : roomFor (dueEntries env s.queue) < bufferSize := by
        unfold cmdTextSize at hlt
        unfold bufferSize
        omega
      rw [if_pos hlt, if_pos hroom]
      exact ⟨_, rfl, rfl⟩

theorem safe_iff_fits {s : Console} (hs : s.cmdText.length ≤ cmdTextSize) (action : ConsoleAction) :
    Safe s action ↔ Fits s action := by
  cases action with
  | addAfterframes frames cmd filter => exact ⟨fun _ => trivial, fun _ => ⟨_, rfl, rfl⟩⟩
  | pauseAfterframes => exact ⟨fun _ => trivial, fun _ => ⟨_, rfl, rfl⟩⟩
  | unpauseAfterframes => exact ⟨fun _ => trivial, fun _ => ⟨_, rfl, rfl⟩⟩
  | clearAfterframes => exact ⟨fun _ => trivial, fun _ => ⟨_, rfl, rfl⟩⟩
  | frame env => exact safe_frame_iff env s
  | addText text =>
    refine ⟨fun _ => trivial, fun _ => ?_⟩
    unfold Safe step
    dsimp only
    rw [cbufAddText_eq]
    split <;> exact ⟨_, rfl, rfl⟩
  | insertText text =>
    unfold Safe Fits step
    dsimp only
    rw [cbufInsertText_eq _ _ hs]
    by_cases hlong : cmdTextSize ≤ text.length
    · rw [if_pos hlong]
      exact ⟨fun _ => .inl hlong, fun _ => ⟨_, rfl, rfl⟩⟩
    · rw [if_neg hlong]
      by_cases hle : text.length + s.cmdText.length ≤ cmdTextSize
      · rw [if_pos hle]
        exact ⟨fun _ => .inr hle, fun _ => ⟨_, rfl, rfl⟩⟩
      · rw [if_neg hle]
        exact ⟨fun ⟨_, h, _⟩ => absurd h nofun, fun h => absurd h (not_or.mpr ⟨hlong, hle⟩)⟩
  | executeLine =>
    unfold Safe Fits step
    dsimp only
    cases htext : s.cmdText with
    | nil => exact ⟨fun _ => by decide, fun _ => ⟨s, rfl, rfl⟩⟩
    | cons c rest =>
      unfold cbufExecuteLine
      by_cases hlt : lineBreak 0 (c :: rest) < lineSize
      · rw [if_pos hlt]
        exact ⟨fun _ => hlt, fun _ => ⟨_, rfl, rfl⟩⟩
      · rw [if_neg hlt]
        exact ⟨fun ⟨_, h, _⟩ => absurd h nofun, fun h => absurd h hlt⟩

theorem frame_frame {env : FilterEnv} {s s' : Console} (h : s.frame env = some s')
    (hs : s.cmdText.length ≤ cmdTextSize) :
    s'.cmdText.length ≤ cmdTextSize ∧ s.lost <+: s'.lost := by
  by_cases hnot : s.queue.afterFramesPaused = true ∨ dueEntries env s.queue = []
  · obtain ⟨q, hq⟩ := frame_of_not_due env s hnot
    obtain rfl := some.inj (hq.symm.trans h)
    exact ⟨hs, prefix_rfl⟩
  · obtain ⟨hpaused, hdue⟩ := not_or.mp hnot
    rw [frame_eq env s (Bool.eq_false_of_not_eq_true hpaused) hdue, ← length_textOf_reverse] at h
    split at h
    · split at h
      · next hlt =>
        cases h
        refine ⟨?_, prefix_rfl⟩
        rw [length_append]
        exact hlt.le
      · cases h
        exact ⟨hs, prefix_append _ _⟩
    · exact absurd h nofun

theorem step_frame {s s' : Console} {action : ConsoleAction} (h : s.step action = some s')
    (hs : s.cmdText.length ≤ cmdTextSize) :
    s'.cmdText.length ≤ cmdTextSize ∧ s.lost <+: s'.lost := by
  cases action with
  | addAfterframes frames cmd filter =>
    cases h
    exact ⟨hs, prefix_rfl⟩
  | pauseAfterframes =>
    cases h
    exact ⟨hs, prefix_rfl⟩
  | unpauseAfterframes =>
    cases h
    exact ⟨hs, prefix_rfl⟩
  | clearAfterframes =>
    cases h
    exact ⟨hs, prefix_rfl⟩
  | frame env => exact frame_frame h hs
  | addText text =>
    obtain ⟨⟨buffer, added⟩, hadd, rfl⟩ := map_eq_some_iff.mp h
    exact ⟨length_cbufAddText_le hs hadd, prefix_rfl⟩
  | insertText text =>
    obtain ⟨buffer, hinsert, rfl⟩ := map_eq_some_iff.mp h
    exact ⟨length_cbufInsertText_le hs hinsert, prefix_rfl⟩
  | executeLine =>
    unfold step at h
    dsimp only at h
    split at h
    · cases h
      exact ⟨hs, prefix_rfl⟩
    · obtain ⟨⟨line, rest⟩, hline, rfl⟩ := map_eq_some_iff.mp h
      refine ⟨?_, prefix_rfl⟩
      unfold cbufExecuteLine at hline
      dsimp only at hline
      split at hline
      · obtain ⟨-, rfl⟩ := Prod.mk.inj (some.inj hline)
        rw [length_drop]
        omega
      · exact absurd hline nofun

theorem run_lost_mono {s s' : Console} {actions : List ConsoleAction}
    (hs : s.cmdText.length ≤ cmdTextSize) (h : run step s actions = some s') :
    s.lost <+: s'.lost := by
  induction actions generalizing s with
  | nil =>
    cases h
    exact prefix_rfl
  | cons action actions ih =>
    obtain ⟨t, ht, hrest⟩ := run_cons_eq_some.mp h
    obtain ⟨hsize, hlost⟩ := step_frame ht hs
    exact hlost.trans (ih hsize hrest)

/-- From every contents of the queue and of the command buffer, and for everything that happens to
them: nothing is written out of bounds, `SZ_Write` does not overflow and no queued text is dropped,
exactly if the sizes fit in every step. -/
theorem commands_arrive_iff_fits (s : Console) (hs : s.cmdText.length ≤ cmdTextSize)
    (actions : List ConsoleAction) :
    (∃ s', run step s actions = some s' ∧ s'.lost = s.lost) ↔
      Guarded step Fits s actions := by
  induction actions generalizing s with
  | nil => exact ⟨fun _ => trivial, fun _ => ⟨s, rfl, rfl⟩⟩
  | cons action actions ih =>
    constructor
    · rintro ⟨s', hrun, hlost⟩
      obtain ⟨t, ht, hrest⟩ := run_cons_eq_some.mp hrun
      obtain ⟨hsize, hpre⟩ := step_frame ht hs
      -- what is lost in the first step would still be lost at the end
      have hsame : t.lost = s.lost := by
        refine hpre.eq_of_length_le ?_ |>.symm
        have hle := (run_lost_mono hsize hrest).length_le
        rwa [hlost] at hle
      refine guarded_cons ((safe_iff_fits hs action).mp ⟨t, ht, hsame⟩) ht ?_
      exact (ih t hsize).mp ⟨s', hrest, hlost.trans hsame.symm⟩
    · rintro ⟨hfits, hrest⟩
      obtain ⟨t, ht, hsame⟩ := (safe_iff_fits hs action).mpr hfits
      obtain ⟨s', hrun, hlost⟩ := (ih t (step_frame ht hs).1).mpr (hrest t ht)
      exact ⟨s', run_cons_eq_some.mpr ⟨t, ht, hrun⟩, hlost.trans hsame⟩

/-- A frame of a script, and the execution of its two commands. -/
theorem commands_arrive_jump :
    ∃ s', run step { cmdText := str "echo \"a;b\";" }
        [.addAfterframes 0 (str "+jump;") noFilter, .frame {}, .executeLine, .executeLine] =
          some s' ∧ s'.lost = [] ∧ s'.cmdText = str ";" := by
  obtain ⟨s', hrun, hlost⟩ := (commands_arrive_iff_fits { cmdText := str "echo \"a;b\";" } (by decide)
    [.addAfterframes 0 (str "+jump;") noFilter, .frame {}, .executeLine, .executeLine]).mpr
    (by decide +kernel)
  refine ⟨s', hrun, hlost, ?_⟩
  have htext : (run step { cmdText := str "echo \"a;b\";" }
      [.addAfterframes 0 (str "+jump;") noFilter, .frame {}, .executeLine, .executeLine]).map
      cmdText = some (str ";") := by decide +kernel
  rw [hrun] at htext
  exact some.inj htext

/-- A script whose only block has a command of 1030 bytes. -/
def longCommand : Str := str "+0:\n" ++ List.replicate 1030 97 ++ str "\n"

/-- The script is loaded, but its command is written over the end of `line`. -/
theorem long_command_overruns_line :
    let loaded := TASScript.loadFromString (TASScript.integerText fun _ => false) [] longCommand
    loaded.rval = true ∧
      run step {} (loaded.blocks.map (fun block =>
          .addAfterframes 0 (block.getCommand decimalInt) noFilter) ++ [.frame {}, .executeLine]) =
        none := by
  decide +kernel

end TASQuake.Analysis.CommandBounds
