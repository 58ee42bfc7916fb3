import TASQuake.Model.CommandQueue
import TASQuake.Model.Editing

/-!
# When and in which order queued commands run

`GetQueuedCommands` walks the queue from its end, so entries that are due in the same call are
copied in the reverse of the order in which they were added.  An entry added with a count `n` is
copied once, by the `max 1 n`-th call that is not paused and finds it active, unless `n` is the
smallest `int`, which wraps around.
-/

namespace TASQuake.Analysis.QueueTiming

open Lib QueueEntry CommandQueue QueueRun AfterFrames Nat List

/-! ## What a call does -/

/-- The text of a list of entries. -/
def textOf (entries : List QueueEntry) : Str := entries.flatMap fun e => e.command ++ str ";"

/-- The entries that a call copies, in the order of the queue. -/
def dueEntries (env : FilterEnv) (q : CommandQueue) : List QueueEntry :=
  (q.afterframesQueue.map (advance env)).filter (due env)

/-- The entries that a call leaves. -/
def leftEntries (env : FilterEnv) (q : CommandQueue) : List QueueEntry :=
  (q.afterframesQueue.map (advance env)).filter fun e => !e.due env

theorem foldlM_putByte (text buffer : Str) (hbuffer : buffer.length ≤ bufferSize) :
    text.foldlM putByte buffer =
      if buffer.length + text.length ≤ bufferSize then some (buffer ++ text) else none := by
  induction text generalizing buffer with
  | nil => simp [hbuffer]
  | cons c text ih =>
    rw [foldlM_cons]
    by_cases hlt : buffer.length < bufferSize
    · have hput : putByte buffer c = some (buffer ++ [c]) := if_pos hlt
      have hlen : (buffer ++ [c]).length ≤ bufferSize := by
        rw [length_append, length_singleton]
        omega
      rw [hput, some_bind, ih _ hlen]
      simp [add_assoc, add_comm 1]
    · have hput : putByte buffer c = none := if_neg hlt
      rw [hput, if_neg (by rw [length_cons]; omega)]
      rfl

theorem copyToBuffer_eq (text buffer : Str) (hbuffer : buffer.length ≤ bufferSize) :
    copyToBuffer buffer text =
      if buffer.length + (text ++ str ";").length ≤ bufferSize then
        some (buffer ++ (text ++ str ";"))
      else none :=
  foldlM_putByte _ _ hbuffer

theorem foldlM_copyToBuffer (entries : List QueueEntry) (buffer : Str)
    (hbuffer : buffer.length ≤ bufferSize) :
    entries.foldlM (fun b e => copyToBuffer b e.command) buffer =
      if buffer.length + (textOf entries).length ≤ bufferSize then some (buffer ++ textOf entries)
      else none := by
  induction entries generalizing buffer with
  | nil => simp [textOf, hbuffer]
  | cons e entries ih =>
    have htext : textOf (e :: entries) = (e.command ++ str ";") ++ textOf entries := rfl
    rw [foldlM_cons, htext, length_append, copyToBuffer_eq _ _ hbuffer]
    by_cases hle : buffer.length + (e.command ++ str ";").length ≤ bufferSize
    · have hcopied : (buffer ++ (e.command ++ str ";")).length ≤ bufferSize := by
        rwa [length_append]
      rw [if_pos hle, some_bind, ih _ hcopied]
      simp only [length_append, append_assoc, add_assoc]
    · rw [if_neg hle, if_neg (by omega)]
      rfl

variable {entries : List QueueEntry}

theorem textOf_eq_nil_iff : textOf entries = [] ↔ entries = [] := by
  cases entries with
  | nil => simp [textOf]
  | cons e entries => simp [textOf, str]

variable (env : FilterEnv)

/-- A call that is not paused takes the entries that are due out of the queue, and copies them from
the last one on if there is room for their text and its terminating NUL. -/
theorem getQueuedCommands_eq (q : CommandQueue) (h : q.afterFramesPaused = false) :
    q.getQueuedCommands env =
      if dueEntries env q = [] then
        some ⟨{ q with afterframesQueue := leftEntries env q }, [], none⟩
      else if (textOf (dueEntries env q).reverse).length < bufferSize then
        some ⟨{ q with afterframesQueue := leftEntries env q }, (dueEntries env q).reverse,
          some (textOf (dueEntries env q).reverse)⟩
      else none := by
  have hpaused : ¬ q.afterFramesPaused = true := by rw [h]; exact nofun
  unfold getQueuedCommands
  rw [if_neg hpaused]
  simp only [advanceCommands, sweepBack_length]
  rw [show (q.afterframesQueue.map (advance env)).filter (due env) =
      dueEntries env q from rfl,
    show (q.afterframesQueue.map (advance env)).filter (fun e => !e.due env) =
      leftEntries env q from rfl]
  generalize dueEntries env q = entries
  rw [foldlM_copyToBuffer _ _ (zero_le _), length_nil, zero_add, nil_append]
  by_cases hnil : entries = []
  · subst hnil
    simp [textOf, finishBuffer]
  · rw [if_neg hnil]
    have hne : textOf entries.reverse ≠ [] := by
      rw [Ne, textOf_eq_nil_iff, reverse_eq_nil_iff]
      exact hnil
    have hempty : (textOf entries.reverse).isEmpty = false := by simpa using hne
    generalize textOf entries.reverse = text at hempty
    by_cases hlt : text.length < bufferSize
    · rw [if_pos hlt, if_pos hlt.le, Option.bind_some]
      simp [finishBuffer, hempty, putByte, hlt]
    · rw [if_neg hlt]
      by_cases hle : text.length ≤ bufferSize
      · rw [if_pos hle, Option.bind_some]
        simp [finishBuffer, hempty, putByte, hlt]
      · rw [if_neg hle]
        rfl

theorem getQueuedCommands_of_paused (q : CommandQueue) (h : q.afterFramesPaused = true) :
    q.getQueuedCommands env = some ⟨q, [], none⟩ := by
  unfold getQueuedCommands
  rw [h]
  rfl

variable {q : CommandQueue}

theorem drained_cases {env : FilterEnv} {d : Drained} (h : q.getQueuedCommands env = some d) :
    q.afterFramesPaused = true ∧ d = ⟨q, [], none⟩ ∨
      q.afterFramesPaused = false ∧ d.queue = { q with afterframesQueue := leftEntries env q } ∧
        d.emitted = (dueEntries env q).reverse ∧
        d.text = if d.emitted = [] then none else some (textOf d.emitted) := by
  cases hpaused : q.afterFramesPaused with
  | true =>
    rw [getQueuedCommands_of_paused env q hpaused] at h
    exact .inl ⟨rfl, (Option.some.inj h).symm⟩
  | false =>
    rw [getQueuedCommands_eq env q hpaused] at h
    refine .inr ⟨rfl, ?_⟩
    split at h
    · next hnil =>
      cases h
      exact ⟨by rw [hpaused], by rw [hnil]; rfl, rfl⟩
    · next hne =>
      split at h
      · cases h
        exact ⟨by rw [hpaused], rfl, by rw [if_neg (by simpa using hne)]⟩
      · exact absurd h nofun

/-! ## The numbers of the entries -/

/-- The numbers of a list of entries. -/
def serials (entries : List QueueEntry) : List ℕ := entries.map serial

/-- The numbers follow the order in which the entries were added. -/
structure Numbered (q : CommandQueue) : Prop where
  sorted : (serials q.afterframesQueue).Pairwise (· < ·)
  fresh : ∀ k ∈ serials q.afterframesQueue, k < q.added

@[simp] theorem advance_serial (e : QueueEntry) : (e.advance env).serial = e.serial := by
  unfold advance
  split <;> rfl

@[simp] theorem advance_command (e : QueueEntry) : (e.advance env).command = e.command := by
  unfold advance
  split <;> rfl

@[simp] theorem advance_filter (e : QueueEntry) : (e.advance env).filter = e.filter := by
  unfold advance
  split <;> rfl

theorem serials_map_advance (entries : List QueueEntry) :
    serials (entries.map (advance env)) = serials entries := by
  unfold serials
  rw [map_map]
  exact map_congr_left fun e _ => advance_serial env e

theorem serials_left_sublist (q : CommandQueue) :
    (serials (leftEntries env q)).Sublist (serials q.afterframesQueue) := by
  have hsub : (serials (leftEntries env q)).Sublist
      (serials (q.afterframesQueue.map (advance env))) := filter_sublist.map _
  rwa [serials_map_advance] at hsub

theorem serials_due_sublist (q : CommandQueue) :
    (serials (dueEntries env q)).Sublist (serials q.afterframesQueue) := by
  have hsub : (serials (dueEntries env q)).Sublist
      (serials (q.afterframesQueue.map (advance env))) := filter_sublist.map _
  rwa [serials_map_advance] at hsub

theorem Numbered.of_sublist (h : Numbered q)
    (hsub : (serials entries).Sublist (serials q.afterframesQueue)) :
    Numbered { q with afterframesQueue := entries } :=
  ⟨h.sorted.sublist hsub, fun k hk => h.fresh k (hsub.subset hk)⟩

theorem Numbered.addAfterframes (h : Numbered q) (frames : Int) (cmd : Str) (filter : ℕ) :
    Numbered (q.addAfterframes frames cmd filter) := by
  have hserials : serials (q.addAfterframes frames cmd filter).afterframesQueue =
      serials q.afterframesQueue ++ [q.added] := by
    unfold serials CommandQueue.addAfterframes
    rw [map_append]
    rfl
  refine ⟨?_, ?_⟩
  · rw [hserials, pairwise_append]
    refine ⟨h.sorted, pairwise_singleton _ _, fun a ha b hb => ?_⟩
    rw [mem_singleton.mp hb]
    exact h.fresh a ha
  · rw [hserials]
    intro k hk
    rcases mem_append.mp hk with hk | hk
    · exact (h.fresh k hk).trans (lt_succ_self _)
    · rw [mem_singleton.mp hk]
      exact lt_succ_self _

theorem Numbered.drained {env : FilterEnv} {d : Drained} (h : Numbered q)
    (hd : q.getQueuedCommands env = some d) : Numbered d.queue := by
  obtain ⟨-, rfl⟩ | ⟨-, hqueue, -⟩ := drained_cases hd
  · exact h
  · rw [hqueue]
    exact h.of_sublist (serials_left_sublist env q)

/-! ## The order of the texts -/

/-- A call of the run: the queue was numbered, and this is what the call did. -/
structure Recorded (call : Call) : Prop where
  numbered : Numbered call.before
  result : call.before.getQueuedCommands call.env = some call.result

/-- What every operation keeps. -/
structure Traced (s : QueueRun) : Prop where
  numbered : Numbered s.queue
  recorded : ∀ call ∈ s.calls, Recorded call

theorem traced_init : Traced {} := ⟨⟨List.Pairwise.nil, nofun⟩, nofun⟩

theorem Traced.step {s s' : QueueRun} {op : QueueOp} (h : Traced s) (hs : s.step op = some s') :
    Traced s' := by
  cases op with
  | add frames cmd filter =>
    cases hs
    exact ⟨h.numbered.addAfterframes frames cmd filter, h.recorded⟩
  | getQueuedCommands env =>
    obtain ⟨d, hd, rfl⟩ := Option.map_eq_some_iff.mp hs
    refine ⟨h.numbered.drained hd, fun call hcall => ?_⟩
    rcases mem_append.mp hcall with hcall | hcall
    · exact h.recorded call hcall
    · rw [mem_singleton.mp hcall]
      exact ⟨h.numbered, hd⟩
  | pause =>
    cases hs
    exact ⟨⟨h.numbered.sorted, h.numbered.fresh⟩, h.recorded⟩
  | unpause =>
    cases hs
    exact ⟨⟨h.numbered.sorted, h.numbered.fresh⟩, h.recorded⟩
  | clear =>
    cases hs
    exact ⟨⟨List.Pairwise.nil, nofun⟩, h.recorded⟩

theorem Traced.run {ops : List QueueOp} {s s' : QueueRun} (h : Traced s)
    (hrun : run QueueRun.step s ops = some s') : Traced s' :=
  invariant_run (fun _ _ _ hs _ => hs.step) h
    (guarded_of_forall fun (_ : QueueRun) (_ : QueueOp) => trivial) hrun

/-- The entries copied by a call come in the order in which they were added. -/
def InOrder (call : Call) : Prop := (serials call.result.emitted).Pairwise (· < ·)

/-- No two entries are due in a call. -/
def AtMostOneDue (call : Call) : Prop :=
  call.before.afterFramesPaused = true ∨ (dueEntries call.env call.before).length ≤ 1

/-- An increasing list is still increasing when it is reversed only if it has at most one
element. -/
theorem pairwise_lt_reverse_iff {l : List ℕ} (h : l.Pairwise (· < ·)) :
    l.reverse.Pairwise (· < ·) ↔ l.length ≤ 1 := by
  match l, h with
  | [], _ => simp
  | [_], _ => simp
  | a :: b :: l, h =>
    have hab : a < b := (pairwise_cons.mp h).1 b mem_cons_self
    refine ⟨fun hrev => ?_, fun hlen => absurd hlen (by simp)⟩
    have hba : b < a := (pairwise_cons.mp (pairwise_reverse.mp hrev)).1 b mem_cons_self
    omega

/-- A call copies its entries in the order in which they were added exactly if no two entries are
due in it; its text is the texts of these entries in the order of the copies. -/
theorem emitted_in_order_iff (ops : List QueueOp) (s : QueueRun)
    (h : run step {} ops = some s) (call : Call) (hcall : call ∈ s.calls) :
    (InOrder call ↔ AtMostOneDue call) ∧
      call.result.text =
        if call.result.emitted = [] then none else some (textOf call.result.emitted) := by
  obtain ⟨hnumbered, hresult⟩ := (traced_init.run h).recorded call hcall
  unfold InOrder AtMostOneDue
  obtain ⟨hpaused, hd⟩ | ⟨hpaused, -, hemitted, htext⟩ := drained_cases hresult
  · rw [hd]
    exact ⟨⟨fun _ => .inl hpaused, fun _ => List.Pairwise.nil⟩, rfl⟩
  · refine ⟨?_, htext⟩
    have hsorted := hnumbered.sorted.sublist (serials_due_sublist call.env call.before)
    have hrev : serials (dueEntries call.env call.before).reverse =
        (serials (dueEntries call.env call.before)).reverse := map_reverse
    have hlen : (serials (dueEntries call.env call.before)).length =
        (dueEntries call.env call.before).length := length_map _
    rw [hemitted, hrev, pairwise_lt_reverse_iff hsorted, hlen, hpaused]
    simp

/-- A command queued for the frame after the next one and one for the next frame run in order. -/
theorem emitted_in_order_later :
    let ops : List QueueOp :=
      [.add 2 (str "+jump") noFilter, .add 0 (str "-jump") noFilter, .getQueuedCommands {}]
    ∃ s call, run step {} ops = some s ∧ s.calls = [call] ∧ InOrder call ∧
      call.result.text = some (str "-jump;") := by
  refine ⟨_, _, rfl, rfl, ?_⟩
  obtain ⟨horder, -⟩ := emitted_in_order_iff
    [.add 2 (str "+jump") noFilter, .add 0 (str "-jump") noFilter, .getQueuedCommands {}] _ rfl _
    mem_cons_self
  refine ⟨horder.mpr (.inr ?_), ?_⟩
  · decide +kernel
  · decide +kernel

/-- A script with two blocks on frame 0 that set the strafe yaw. -/
def twoYaws : Session Int :=
  let block (yaw : Int) : FrameBlock Int :=
    { parsed := true, convars := OrderedMap.empty.put (str "tas_strafe_yaw") yaw }
  { Session.init Session.exampleHost with
    playback := { currentScript := { blocks := [block 1, block 2] } } }

/-- The operations on the queue when the frame is played. -/
def playedOps (s : Session Int) : List QueueOp :=
  (s.playFrame Session.exampleHost).afterframes.map (fun e => .add e.frames e.command e.filter) ++
    [.getQueuedCommands {}]

/-- The block that is stacked last is executed first, so the console ends with a yaw of 1 and the
stack with a yaw of 2. -/
theorem two_blocks_run_backwards :
    (run step {} (playedOps twoYaws)).map
        (fun s => s.calls.map fun call => (serials call.result.emitted, call.result.text)) =
      some [([1, 0], some (str "tas_strafe_yaw 2;;tas_strafe_yaw 1;;"))] ∧
    (twoYaws.playFrame Session.exampleHost).playback.stacked.convars.find? (str "tas_strafe_yaw") =
      some 2 := by
  decide +kernel

/-! ## The call that copies an entry -/

/-- A call counts down the entries with a filter. -/
def eligible (filter : ℕ) (call : Call) : Bool :=
  !call.before.afterFramesPaused && call.env.filterMatchesCurrentFrame filter

/-- What an entry is apart from its count. -/
def identity (e : QueueEntry) : ℕ × Str × ℕ := (e.serial, e.command, e.filter)

/-- In the calls since the entry was added, it is copied by the `max 1 n`-th one that counts it
down, at most once and with its own text, and in every call the other entries keep their
order. -/
structure FiresOnTime (n : Int) (cmd : Str) (filter serial : ℕ) (calls : List Call) : Prop where
  emitted_iff : ∀ earlier call later, calls = earlier ++ call :: later →
    (serial ∈ serials call.result.emitted ↔
      eligible filter call = true ∧ (earlier.countP (eligible filter) : Int) + 1 = max 1 n)
  once : (calls.flatMap fun call => serials call.result.emitted).count serial ≤ 1
  command : ∀ call ∈ calls, ∀ e ∈ call.result.emitted, e.serial = serial → e.command = cmd
  stay : ∀ call ∈ calls, call.result.queue.afterframesQueue.map identity =
    (call.before.afterframesQueue.filter fun e =>
      decide (e.serial ∉ serials call.result.emitted)).map identity

theorem intPred_eq {i : Int} (hlow : -2 ^ 31 < i) (hhigh : i < 2 ^ 31) : intPred i = i - 1 := by
  unfold intPred
  rw [Int.bmod_def]
  split <;> omega

section Entry

variable {env : FilterEnv} {q : CommandQueue} {e : QueueEntry}

theorem Numbered.eq_of_serial_eq (h : Numbered q) {a b : QueueEntry}
    (ha : a ∈ q.afterframesQueue) (hb : b ∈ q.afterframesQueue) (hab : a.serial = b.serial) :
    a = b := by
  have hnodup := h.sorted.imp fun hlt => ne_of_lt hlt
  exact inj_on_of_nodup_map hnodup ha hb hab

theorem mem_dueEntries {e' : QueueEntry} :
    e' ∈ dueEntries env q ↔
      ∃ e ∈ q.afterframesQueue, e.advance env = e' ∧ e'.due env = true := by
  unfold dueEntries
  rw [mem_filter, mem_map]
  exact ⟨fun ⟨⟨e, he, hadv⟩, hdue⟩ => ⟨e, he, hadv, hdue⟩,
    fun ⟨e, he, hadv, hdue⟩ => ⟨⟨e, he, hadv⟩, hdue⟩⟩

theorem Numbered.serial_mem_due_iff (h : Numbered q) (env : FilterEnv)
    (he : e ∈ q.afterframesQueue) :
    e.serial ∈ serials (dueEntries env q) ↔ (e.advance env).due env = true := by
  unfold serials
  rw [mem_map]
  constructor
  · rintro ⟨e', hmem, hserial⟩
    obtain ⟨a, ha, rfl, hdue⟩ := mem_dueEntries.mp hmem
    rw [advance_serial] at hserial
    rwa [← h.eq_of_serial_eq ha he hserial]
  · exact fun hdue => ⟨e.advance env, mem_dueEntries.mpr ⟨e, he, rfl, hdue⟩, advance_serial env e⟩

theorem due_advance (env : FilterEnv) (e : QueueEntry) :
    (e.advance env).due env =
      (env.filterMatchesCurrentFrame e.filter && decide (intPred e.frames ≤ 0)) := by
  unfold due advance active
  cases hactive : env.filterMatchesCurrentFrame e.filter <;> simp [hactive]

theorem Numbered.map_identity_left (h : Numbered q) (env : FilterEnv) :
    (leftEntries env q).map identity =
      (q.afterframesQueue.filter fun e =>
        decide (e.serial ∉ serials (dueEntries env q))).map identity := by
  unfold leftEntries
  rw [filter_map, map_map]
  have hidentity : identity ∘ advance env = identity := by
    funext e
    simp [identity]
  have hfilter : q.afterframesQueue.filter ((fun e => !e.due env) ∘ advance env) =
      q.afterframesQueue.filter fun e => decide (e.serial ∉ serials (dueEntries env q)) := by
    refine filter_congr fun e he => ?_
    simp [h.serial_mem_due_iff env he]
  rw [hidentity, hfilter]

end Entry

theorem mem_serials_reverse {serial : ℕ} :
    serial ∈ serials entries.reverse ↔ serial ∈ serials entries := by
  unfold serials
  rw [map_reverse, mem_reverse]

theorem Recorded.stay {call : Call} (h : Recorded call) :
    call.result.queue.afterframesQueue.map identity =
      (call.before.afterframesQueue.filter fun e =>
        decide (e.serial ∉ serials call.result.emitted)).map identity := by
  obtain ⟨-, hd⟩ | ⟨-, hqueue, hemitted, -⟩ := drained_cases h.result
  · rw [hd]
    simp [serials]
  · rw [hqueue, hemitted]
    simp only [mem_serials_reverse]
    exact h.numbered.map_identity_left call.env

theorem intPred_nonpos_iff {i : Int} (hlow : -2 ^ 31 ≤ i) (hhigh : i < 2 ^ 31) :
    intPred i ≤ 0 ↔ i ≤ 1 ∧ i ≠ -2 ^ 31 := by
  by_cases hmin : i = -2 ^ 31
  · subst hmin
    decide
  · rw [intPred_eq (by omega) hhigh]
    omega

theorem advance_mem_left {env : FilterEnv} {e : QueueEntry} (he : e ∈ q.afterframesQueue)
    (hdue : (e.advance env).due env = false) : e.advance env ∈ leftEntries env q := by
  unfold leftEntries
  rw [mem_filter]
  exact ⟨mem_map_of_mem he, by rw [hdue]; rfl⟩

section Calls

variable {n : Int} {cmd : Str} {filter serial : ℕ}

/-- The entry while it waits: it has been counted down once in every call that counts it down. -/
def waitingEntry (n : Int) (cmd : Str) (filter serial : ℕ) (calls : List Call) : QueueEntry :=
  { frames := n - (calls.countP (eligible filter) : Int), command := cmd, filter := filter
    serial := serial }

variable {call : Call}

theorem concat_eq_append_cons {calls earlier later : List Call} {new : Call}
    (h : calls ++ [new] = earlier ++ call :: later) :
    earlier = calls ∧ call = new ∨ ∃ rest, calls = earlier ++ call :: rest := by
  rcases eq_nil_or_concat later with rfl | ⟨rest, last, rfl⟩
  · obtain ⟨hcalls, hnew⟩ := append_inj' h rfl
    exact .inl ⟨hcalls.symm, (cons.inj hnew).1.symm⟩
  · rw [concat_eq_append, ← cons_append, ← append_assoc] at h
    exact .inr ⟨rest, (append_inj' h rfl).1⟩

/-- What is known of the entry after some calls. -/
structure Tracked (n : Int) (cmd : Str) (filter serial : ℕ) (s : QueueRun) : Prop where
  numbered : Numbered s.queue
  lt_added : serial < s.queue.added
  waiting : (s.calls.countP (eligible filter) : Int) < max 1 n →
    waitingEntry n cmd filter serial s.calls ∈ s.queue.afterframesQueue
  gone : max 1 n ≤ (s.calls.countP (eligible filter) : Int) →
    serial ∉ serials s.queue.afterframesQueue
  count : (s.calls.flatMap fun call => serials call.result.emitted).count serial =
    if max 1 n ≤ (s.calls.countP (eligible filter) : Int) then 1 else 0
  fires : FiresOnTime n cmd filter serial s.calls

variable {q : CommandQueue} {s : QueueRun}

theorem Tracked.of_queue (h : Tracked n cmd filter serial s) (hq : Numbered q)
    (hadded : s.queue.added ≤ q.added)
    (hold : ∀ e ∈ s.queue.afterframesQueue, e ∈ q.afterframesQueue)
    (hnew : ∀ k ∈ serials q.afterframesQueue, k ∈ serials s.queue.afterframesQueue ∨ s.queue.added ≤ k) :
    Tracked n cmd filter serial { s with queue := q } where
  numbered := hq
  lt_added := h.lt_added.trans_le hadded
  waiting := fun hlt => hold _ (h.waiting hlt)
  gone := by
    intro hle hmem
    rcases hnew serial hmem with hmem | hge
    · exact h.gone hle hmem
    · exact absurd h.lt_added (not_lt.mpr hge)
  count := h.count
  fires := h.fires

theorem Tracked.emitted_iff (h : Tracked n cmd filter serial s) (hlow : -2 ^ 31 < n)
    (hhigh : n < 2 ^ 31) (env : FilterEnv) :
    serial ∈ serials (dueEntries env s.queue) ↔
      env.filterMatchesCurrentFrame filter = true ∧
        (s.calls.countP (eligible filter) : Int) + 1 = max 1 n := by
  by_cases hlt : (s.calls.countP (eligible filter) : Int) < max 1 n
  · have hiff := h.numbered.serial_mem_due_iff env (h.waiting hlt)
    rw [due_advance, Bool.and_eq_true, decide_eq_true_eq] at hiff
    refine hiff.trans (and_congr_right fun _ => ?_)
    simp only [waitingEntry]
    rw [intPred_nonpos_iff (by omega) (by omega)]
    omega
  · have hgone : serial ∉ serials (dueEntries env s.queue) := fun hmem =>
      h.gone (not_lt.mp hlt) ((serials_due_sublist env s.queue).subset hmem)
    exact ⟨fun hmem => absurd hmem hgone, fun ⟨_, hcount⟩ => absurd hcount (by omega)⟩

theorem countP_concat (filter : ℕ) (calls : List Call) (call : Call) :
    ((calls ++ [call]).countP (eligible filter) : Int) =
      (calls.countP (eligible filter) : Int) + if eligible filter call then 1 else 0 := by
  rw [countP_append, countP_singleton]
  split <;> simp

theorem Tracked.waiting_of_call (h : Tracked n cmd filter serial s) (hlow : -2 ^ 31 < n)
    (hhigh : n < 2 ^ 31) (hbefore : call.before = s.queue)
    (hpaused : s.queue.afterFramesPaused = false)
    (hlt : ((s.calls ++ [call]).countP (eligible filter) : Int) < max 1 n) :
    waitingEntry n cmd filter serial (s.calls ++ [call]) ∈ leftEntries call.env s.queue := by
  have hcount := countP_concat filter s.calls call
  have heligible : eligible filter call = call.env.filterMatchesCurrentFrame filter := by
    unfold eligible
    rw [hbefore, hpaused]
    rfl
  rw [heligible] at hcount
  have hwait := h.waiting (by split at hcount <;> omega)
  have hdue : ((waitingEntry n cmd filter serial s.calls).advance call.env).due call.env =
      false := by
    refine Bool.eq_false_iff.mpr fun hdue => ?_
    obtain ⟨hmatch, hlast⟩ := (h.emitted_iff hlow hhigh call.env).mp
      ((h.numbered.serial_mem_due_iff call.env hwait).mpr hdue)
    rw [if_pos hmatch] at hcount
    omega
  have hleft := advance_mem_left hwait hdue
  suffices hadv : (waitingEntry n cmd filter serial s.calls).advance call.env =
      waitingEntry n cmd filter serial (s.calls ++ [call]) by rwa [hadv] at hleft
  unfold advance active waitingEntry
  cases hmatch : call.env.filterMatchesCurrentFrame filter with
  | false =>
    rw [hmatch] at hcount
    rw [hcount]
    simp
  | true =>
    rw [hmatch] at hcount
    simp only [if_true] at hcount
    have hpred : intPred (n - (s.calls.countP (eligible filter) : Int)) =
        n - ((s.calls ++ [call]).countP (eligible filter) : Int) := by
      rw [intPred_eq (by omega) (by omega), hcount]
      ring
    simp [hpred]

theorem Numbered.not_mem_left {env : FilterEnv} (h : Numbered q)
    (hmem : serial ∈ serials (dueEntries env q)) : serial ∉ serials (leftEntries env q) := by
  have hserials : serials (leftEntries env q) = (q.afterframesQueue.filter fun e =>
      decide (e.serial ∉ serials (dueEntries env q))).map QueueEntry.serial := by
    have hmap := congrArg (map Prod.fst) (h.map_identity_left env)
    rwa [map_map, map_map] at hmap
  rw [hserials]
  simp only [mem_map, mem_filter, decide_eq_true_eq, not_exists, not_and]
  rintro e ⟨-, hnot⟩ rfl
  exact hnot hmem

theorem Tracked.command_eq (h : Tracked n cmd filter serial s) {env : FilterEnv} {e : QueueEntry}
    (he : e ∈ dueEntries env s.queue) (hserial : e.serial = serial) : e.command = cmd := by
  obtain ⟨a, ha, rfl, -⟩ := mem_dueEntries.mp he
  rw [advance_serial] at hserial
  rw [advance_command]
  by_cases hlt : (s.calls.countP (eligible filter) : Int) < max 1 n
  · rw [h.numbered.eq_of_serial_eq ha (h.waiting hlt) hserial]
    rfl
  · exact absurd (mem_map.mpr ⟨a, ha, hserial⟩) (h.gone (not_lt.mp hlt))

theorem Tracked.call_spec (h : Tracked n cmd filter serial s) (hlow : -2 ^ 31 < n)
    (hhigh : n < 2 ^ 31) (hbefore : call.before = s.queue)
    (hcall : s.queue.getQueuedCommands call.env = some call.result) :
    (serial ∈ serials call.result.emitted ↔
      eligible filter call = true ∧ (s.calls.countP (eligible filter) : Int) + 1 = max 1 n) ∧
    (serials call.result.emitted).Nodup ∧
    ∀ e ∈ call.result.emitted, e.serial = serial → e.command = cmd := by
  obtain ⟨hpaused, hd⟩ | ⟨hpaused, -, hemitted, -⟩ := drained_cases hcall
  · have heligible : eligible filter call = false := by
      simp [eligible, hbefore, hpaused]
    rw [heligible, hd]
    exact ⟨by simp [serials], nodup_nil, nofun⟩
  · have heligible : eligible filter call = call.env.filterMatchesCurrentFrame filter := by
      simp [eligible, hbefore, hpaused]
    rw [heligible, hemitted]
    refine ⟨mem_serials_reverse.trans (h.emitted_iff hlow hhigh call.env), ?_, ?_⟩
    · have hsorted := h.numbered.sorted.sublist (serials_due_sublist call.env s.queue)
      have hnodup := hsorted.imp fun hlt => ne_of_lt hlt
      unfold serials at hnodup ⊢
      rwa [map_reverse, nodup_reverse]
    · exact fun e he hserial => h.command_eq (mem_reverse.mp he) hserial

theorem FiresOnTime.concat {calls : List Call} (h : FiresOnTime n cmd filter serial calls)
    (hemitted : serial ∈ serials call.result.emitted ↔ eligible filter call = true ∧ (calls.countP (eligible filter) : Int) + 1 = max 1 n)
    (honce : ((calls ++ [call]).flatMap fun call => serials call.result.emitted).count serial ≤ 1)
    (hcommand : ∀ e ∈ call.result.emitted, e.serial = serial → e.command = cmd)
    (hrecorded : Recorded call) : FiresOnTime n cmd filter serial (calls ++ [call]) where
  emitted_iff := by
    intro earlier call' later hsplit
    obtain ⟨rfl, rfl⟩ | ⟨rest, hrest⟩ := concat_eq_append_cons hsplit
    · exact hemitted
    · exact h.emitted_iff earlier call' rest hrest
  once := honce
  command := by
    intro call' hcall'
    rcases mem_append.mp hcall' with hcall' | hcall'
    · exact h.command call' hcall'
    · rw [mem_singleton.mp hcall']
      exact hcommand
  stay := by
    intro call' hcall'
    rcases mem_append.mp hcall' with hcall' | hcall'
    · exact h.stay call' hcall'
    · rw [mem_singleton.mp hcall']
      exact hrecorded.stay

section

variable (h : Tracked n cmd filter serial s)
include h

theorem Tracked.queue_of_call (hlow : -2 ^ 31 < n)
    (hhigh : n < 2 ^ 31) (hbefore : call.before = s.queue)
    (hcall : s.queue.getQueuedCommands call.env = some call.result) :
    serial < call.result.queue.added ∧
    (((s.calls ++ [call]).countP (eligible filter) : Int) < max 1 n →
      waitingEntry n cmd filter serial (s.calls ++ [call]) ∈ call.result.queue.afterframesQueue) ∧
    (max 1 n ≤ ((s.calls ++ [call]).countP (eligible filter) : Int) →
      serial ∉ serials call.result.queue.afterframesQueue) := by
  have hconcat := countP_concat filter s.calls call
  obtain ⟨hpaused, hd⟩ | ⟨hpaused, hqueue, -⟩ := drained_cases hcall
  · have heligible : eligible filter call = false := by
      simp [eligible, hbefore, hpaused]
    rw [heligible] at hconcat
    simp only [Bool.false_eq_true, if_false, Int.add_zero] at hconcat
    unfold waitingEntry
    rw [hd, hconcat]
    exact ⟨h.lt_added, h.waiting, h.gone⟩
  · rw [hqueue]
    refine ⟨h.lt_added, h.waiting_of_call hlow hhigh hbefore hpaused, fun hle => ?_⟩
    by_cases hgone : max 1 n ≤ (s.calls.countP (eligible filter) : Int)
    · exact fun hmem => h.gone hgone ((serials_left_sublist call.env s.queue).subset hmem)
    · -- this call is the last one that counts the entry down
      have heligible : eligible filter call = true := by
        by_contra hnot
        rw [if_neg hnot] at hconcat
        omega
      rw [if_pos heligible] at hconcat
      have hmatch := (Bool.and_eq_true_iff.mp heligible).2
      exact h.numbered.not_mem_left
        ((h.emitted_iff hlow hhigh call.env).mpr ⟨hmatch, by omega⟩)

theorem Tracked.count_of_call
    (hemitted : serial ∈ serials call.result.emitted ↔ eligible filter call = true ∧ (s.calls.countP (eligible filter) : Int) + 1 = max 1 n)
    (hnodup : (serials call.result.emitted).Nodup) :
    ((s.calls ++ [call]).flatMap fun call => serials call.result.emitted).count serial =
      if max 1 n ≤ ((s.calls ++ [call]).countP (eligible filter) : Int) then 1 else 0 := by
  rw [flatMap_append, flatMap_singleton, count_append, h.count, countP_concat]
  by_cases hmem : serial ∈ serials call.result.emitted
  · obtain ⟨heligible, hlast⟩ := hemitted.mp hmem
    rw [count_eq_one_of_mem hnodup hmem, if_pos heligible, if_neg (by omega), if_pos (by omega)]
  · rw [count_eq_zero_of_not_mem hmem, add_zero]
    refine if_congr ?_ rfl rfl
    split
    · next heligible =>
      have hne : (s.calls.countP (eligible filter) : Int) + 1 ≠ max 1 n :=
        fun hlast => hmem (hemitted.mpr ⟨heligible, hlast⟩)
      omega
    · rw [Int.add_zero]

theorem Tracked.drained (hlow : -2 ^ 31 < n)
    (hhigh : n < 2 ^ 31) (call : Call) (hbefore : call.before = s.queue)
    (hcall : s.queue.getQueuedCommands call.env = some call.result) :
    Tracked n cmd filter serial { queue := call.result.queue, calls := s.calls ++ [call] } := by
  obtain ⟨hemitted, hnodup, hcommand⟩ := h.call_spec hlow hhigh hbefore hcall
  obtain ⟨hadded, hwaiting, hgone⟩ := h.queue_of_call hlow hhigh hbefore hcall
  have hcount := h.count_of_call hemitted hnodup
  refine ⟨h.numbered.drained hcall, hadded, hwaiting, hgone, hcount,
    h.fires.concat hemitted ?_ hcommand ⟨hbefore ▸ h.numbered, hbefore ▸ hcall⟩⟩
  rw [hcount]
  split <;> simp

theorem Tracked.step {s' : QueueRun} {op : QueueOp}
    (hlow : -2 ^ 31 < n) (hhigh : n < 2 ^ 31) (hop : op ≠ .clear) (hs : s.step op = some s') :
    Tracked n cmd filter serial s' := by
  cases op with
  | add frames cmd' filter' =>
    cases hs
    refine h.of_queue (h.numbered.addAfterframes frames cmd' filter') (le_succ _)
      (fun e he => mem_append_left _ he) fun k hk => ?_
    rw [serials, addAfterframes, map_append, mem_append] at hk
    exact hk.imp_right fun hk => (mem_singleton.mp hk).ge
  | getQueuedCommands env =>
    obtain ⟨d, hd, rfl⟩ := Option.map_eq_some_iff.mp hs
    exact h.drained hlow hhigh ⟨s.queue, env, d⟩ rfl hd
  | pause =>
    cases hs
    exact h.of_queue ⟨h.numbered.sorted, h.numbered.fresh⟩ le_rfl (fun _ he => he)
      fun _ hk => .inl hk
  | unpause =>
    cases hs
    exact h.of_queue ⟨h.numbered.sorted, h.numbered.fresh⟩ le_rfl (fun _ he => he)
      fun _ hk => .inl hk
  | clear => exact absurd rfl hop

end

theorem tracked_init (hq : Numbered q) (n : Int) (cmd : Str) (filter : ℕ) :
    Tracked n cmd filter q.added { queue := q.addAfterframes n cmd filter } where
  numbered := hq.addAfterframes n cmd filter
  lt_added := lt_succ_self _
  waiting := by
    intro _
    refine mem_append_right _ (mem_singleton.mpr ?_)
    simp [waitingEntry]
  gone := by
    intro hle
    have : (0 : Int) < max 1 n := lt_max_of_lt_left one_pos
    simp only [countP_nil, cast_zero] at hle
    omega
  count := by
    have : (0 : Int) < max 1 n := lt_max_of_lt_left one_pos
    rw [if_neg (by simp)]
    rfl
  fires := by
    refine ⟨?_, by simp, nofun, nofun⟩
    intro earlier call later hsplit
    exact absurd hsplit (by simp)

/-- What is known of an entry with the smallest count: it is not copied by the first call that
counts it down, nor before. -/
structure Overflowed (cmd : Str) (filter serial : ℕ) (s : QueueRun) : Prop where
  numbered : Numbered s.queue
  waiting : s.calls.countP (eligible filter) = 0 →
    waitingEntry (-2 ^ 31) cmd filter serial [] ∈ s.queue.afterframesQueue
  silent : ∀ earlier call later, s.calls = earlier ++ call :: later →
    earlier.countP (eligible filter) = 0 → serial ∉ serials call.result.emitted

theorem due_advance_overflow (env : FilterEnv) (cmd : Str) (filter serial : ℕ) :
    ((waitingEntry (-2 ^ 31) cmd filter serial []).advance env).due env = false := by
  have hpred : decide (intPred (-2 ^ 31 - ((0 : ℕ) : Int)) ≤ 0) = false := by decide
  rw [due_advance]
  unfold waitingEntry
  rw [countP_nil, hpred, Bool.and_false]

theorem Overflowed.drained (h : Overflowed cmd filter serial s) (call : Call)
    (hbefore : call.before = s.queue)
    (hcall : s.queue.getQueuedCommands call.env = some call.result) :
    Overflowed cmd filter serial { queue := call.result.queue, calls := s.calls ++ [call] } := by
  refine ⟨h.numbered.drained hcall, fun hzero => ?_, ?_⟩
  · -- no call has counted the entry down, and it is as it was added
    rw [countP_append, countP_singleton, Nat.add_eq_zero_iff] at hzero
    have hwait := h.waiting hzero.1
    have hnot : eligible filter call = false := by
      by_contra heligible
      exact absurd hzero.2 (by simp [heligible])
    obtain ⟨hpaused, hd⟩ | ⟨hpaused, hqueue, -⟩ := drained_cases hcall
    · rw [hd]
      exact hwait
    · have hmatch : call.env.filterMatchesCurrentFrame filter = false := by
        simpa [eligible, hbefore, hpaused] using hnot
      have hleft := advance_mem_left hwait (due_advance_overflow call.env cmd filter serial)
      have hsame : (waitingEntry (-2 ^ 31) cmd filter serial []).advance call.env =
          waitingEntry (-2 ^ 31) cmd filter serial [] := by
        unfold advance active
        exact if_neg (by rw [show (waitingEntry (-2 ^ 31) cmd filter serial []).filter = filter
          from rfl, hmatch]; exact nofun)
      rw [hsame] at hleft
      rw [hqueue]
      exact hleft
  · intro earlier call' later hsplit hzero
    obtain ⟨rfl, rfl⟩ | ⟨rest, hrest⟩ := concat_eq_append_cons hsplit
    · obtain ⟨-, hd⟩ | ⟨-, -, hemitted, -⟩ := drained_cases hcall
      · rw [hd]
        exact nofun
      · rw [hemitted, mem_serials_reverse]
        intro hmem
        have hdue := (h.numbered.serial_mem_due_iff call'.env (h.waiting hzero)).mp hmem
        rw [due_advance_overflow] at hdue
        exact absurd hdue nofun
    · exact h.silent earlier call' rest hrest hzero

theorem Overflowed.step {s' : QueueRun} {op : QueueOp} (h : Overflowed cmd filter serial s)
    (hop : op ≠ .clear) (hs : s.step op = some s') : Overflowed cmd filter serial s' := by
  cases op with
  | add frames cmd' filter' =>
    cases hs
    exact ⟨h.numbered.addAfterframes frames cmd' filter',
      fun hzero => mem_append_left _ (h.waiting hzero), h.silent⟩
  | getQueuedCommands env =>
    obtain ⟨d, hd, rfl⟩ := Option.map_eq_some_iff.mp hs
    exact h.drained ⟨s.queue, env, d⟩ rfl hd
  | pause =>
    cases hs
    exact ⟨⟨h.numbered.sorted, h.numbered.fresh⟩, h.waiting, h.silent⟩
  | unpause =>
    cases hs
    exact ⟨⟨h.numbered.sorted, h.numbered.fresh⟩, h.waiting, h.silent⟩
  | clear => exact absurd rfl hop

theorem overflowed_init (hq : Numbered q) (cmd : Str) (filter : ℕ) :
    Overflowed cmd filter q.added { queue := q.addAfterframes (-2 ^ 31) cmd filter } where
  numbered := hq.addAfterframes _ cmd filter
  waiting := fun _ => mem_append_right _ (mem_singleton.mpr rfl)
  silent := fun _ _ _ hsplit => absurd hsplit (by simp)

theorem Overflowed.fires_iff (h : Overflowed cmd filter serial s)
    (hrecorded : ∀ call ∈ s.calls, Recorded call) :
    FiresOnTime (-2 ^ 31) cmd filter serial s.calls ↔
      ∀ call ∈ s.calls, eligible filter call = false := by
  constructor
  · intro hfires
    by_contra hnot
    push Not at hnot
    obtain ⟨call₀, hmem, heligible₀⟩ := hnot
    -- the first call that counts the entry down would have to copy it
    obtain ⟨call, hfind⟩ := Option.isSome_iff_exists.mp
      (find?_isSome.mpr ⟨call₀, hmem, Bool.eq_true_of_not_eq_false heligible₀⟩)
    obtain ⟨heligible, earlier, later, hsplit, hearlier⟩ := find?_eq_some_iff_append.mp hfind
    have hzero := countP_eq_zero.mpr fun c hc => by simpa using hearlier c hc
    refine h.silent earlier call later hsplit hzero
      ((hfires.emitted_iff earlier call later hsplit).mpr ⟨heligible, ?_⟩)
    rw [hzero]
    rfl
  · intro hnone
    have hzero {calls : List Call} (hcalls : ∀ call ∈ calls, call ∈ s.calls) :
        calls.countP (eligible filter) = 0 :=
      countP_eq_zero.mpr fun c hc => by rw [hnone c (hcalls c hc)]; exact nofun
    have hsilent : ∀ call ∈ s.calls, serial ∉ serials call.result.emitted := by
      intro call hcall
      obtain ⟨earlier, later, hsplit⟩ := append_of_mem hcall
      refine h.silent earlier call later hsplit (hzero fun c hc => ?_)
      rw [hsplit]
      exact mem_append_left _ hc
    refine ⟨?_, ?_, ?_, fun call hcall => (hrecorded call hcall).stay⟩
    · intro earlier call later hsplit
      have hcall : call ∈ s.calls := by
        rw [hsplit]
        exact mem_append_right _ mem_cons_self
      exact ⟨fun hmem => absurd hmem (hsilent call hcall),
        fun heligible => absurd (heligible.1.symm.trans (hnone call hcall)) nofun⟩
    · rw [count_eq_zero_of_not_mem]
      · exact zero_le _
      · simpa using hsilent
    · intro call hcall e he hserial
      exact absurd (mem_map.mpr ⟨e, he, hserial⟩) (hsilent call hcall)

end Calls

/-- For every entry and all operations that follow and do not clear the queue: the entry is copied
on time and once, and the others keep their order, exactly if its count is not the smallest `int` or
no call counts it down. -/
theorem fires_on_time_iff (ops : List QueueOp) (s : QueueRun)
    (hs : run step {} ops = some s) (n : Int) (hlow : -2 ^ 31 ≤ n) (hhigh : n < 2 ^ 31)
    (cmd : Str) (filter : ℕ) (later : List QueueOp) (hclear : QueueOp.clear ∉ later)
    (s' : QueueRun)
    (hs' : run step { queue := s.queue.addAfterframes n cmd filter } later = some s') :
    FiresOnTime n cmd filter s.queue.added s'.calls ↔
      n ≠ -2 ^ 31 ∨ ∀ call ∈ s'.calls, eligible filter call = false := by
  have hnumbered := (traced_init.run hs).numbered
  have hguard {q : QueueRun} :
      Guarded step (fun (_ : QueueRun) (op : QueueOp) => op ≠ .clear) q later :=
    guarded_of_forall_mem fun op hop _ => by
      rintro rfl
      exact hclear hop
  by_cases hmin : n = -2 ^ 31
  · subst hmin
    have hover := invariant_run (fun _ _ _ h hop hstep => h.step hop hstep)
        (overflowed_init hnumbered cmd filter) hguard hs'
    have htraced : Traced s' :=
      Traced.run ⟨hnumbered.addAfterframes (-2 ^ 31) cmd filter, fun _ h => by cases h⟩ hs'
    rw [hover.fires_iff htraced.recorded]
    simp
  · have htracked :=
      invariant_run (fun _ _ _ h hop hstep => h.step (lt_of_le_of_ne hlow (Ne.symm hmin)) hhigh
        hop hstep) (tracked_init hnumbered n cmd filter) hguard hs'
    exact ⟨fun _ => .inl hmin, fun _ => htracked.fires⟩

/-- The game is not paused, or it is. -/
def unpausedEnv : FilterEnv := { gameState := .unpaused }

@[inherit_doc unpausedEnv]
def pausedEnv : FilterEnv := { gameState := .paused }

/-- A command for the second frame on which the game is not paused is queued. -/
def jumpQueued : QueueRun :=
  { queue := addAfterframes {} 2 (str "+jump") unpausedFilter }

/-- What happens then. -/
def secondFrame : List QueueOp :=
  [.getQueuedCommands unpausedEnv, .getQueuedCommands pausedEnv, .pause,
    .getQueuedCommands unpausedEnv, .unpause, .add 0 (str "echo") noFilter,
    .getQueuedCommands unpausedEnv, .getQueuedCommands unpausedEnv]

/-- It is copied by the fourth call after it, which is the second one that counts it down. -/
theorem fires_on_time_second_frame :
    ∃ s, run step jumpQueued secondFrame = some s ∧
      FiresOnTime 2 (str "+jump") unpausedFilter 0 s.calls ∧
      s.calls.map (fun call => call.result.text) =
        [none, none, none, some (str "echo;+jump;"), none] := by
  refine ⟨_, rfl, ?_, by decide +kernel⟩
  exact (fires_on_time_iff [] {} rfl 2 (by decide) (by decide) (str "+jump") unpausedFilter
    secondFrame (by decide) _ rfl).mpr (.inl (by decide))

/-- The smallest `int` is not counted as a command that is due. -/
theorem smallest_count_not_copied :
    (run step {} [.add (-2 ^ 31) (str "+jump") noFilter, .getQueuedCommands {}]).map
        (fun s => (s.calls.map fun call => (eligible noFilter call, call.result.text),
          s.queue.afterframesQueue.map fun e => e.frames)) =
      some ([(true, none)], [2 ^ 31 - 1]) := by
  decide +kernel

end TASQuake.Analysis.QueueTiming
