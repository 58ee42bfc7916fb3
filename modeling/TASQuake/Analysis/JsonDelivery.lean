import TASQuake.Lib.Lines
import TASQuake.Lib.Run
import TASQuake.Model.JsonServer

/-!
# Messages of the JSON server

`ReadMessages` starts at the beginning of its buffer whenever it is called: of a message that the
call before has not seen to its end it sees only the end.  A call that finds the client gone does
not look at what it has read before.

What has been put into a queue is what its callback has got and what is still there (`logged`).
Reading adds the messages among the bytes of the call (`scan_spec`), dispatching adds nothing.
-/

namespace TASQuake.Analysis.JsonDelivery

open Lib IPCServer OrderedMap Option List

variable {C J : Type} (json : JsonOps J)

/-! ## Logs -/

/-- The message of a text, if it has a registered type. -/
def accept (callbacks : OrderedMap Str C) (text : Str) : Option (Str × J) :=
  match json.parse text with
  | .error _ => none
  | .ok msg =>
    match json.typeField msg with
    | .missing => none
    | .noString _ => none
    | .string type => if callbacks.contains type then some (type, msg) else none

/-- The messages that a stream has completed. -/
def accepted (callbacks : OrderedMap Str C) (stream : Str) : List (Str × J) :=
  (terminated 0 stream).filterMap (accept json callbacks)

/-- The messages of a type. -/
def ofType (type : Str) (msgs : List (Str × J)) : List J :=
  msgs.filterMap fun msg => if msg.1 = type then some msg.2 else none

/-- The queue of a type. -/
def queueOf (s : IPCServer C J) (type : Str) : List J := (s.msgQueue.find? type).getD []

/-- What the callback of a type has got. -/
def handedOf (s : IPCServer C J) (type : Str) : List J :=
  s.handed.filterMap fun call => if call.type = type then some call.msg else none

/-- What has been put into the queue of a type. -/
def logged (s : IPCServer C J) (type : Str) : List J := handedOf s type ++ queueOf s type

/-- Whether messages of a type wait for `BlockForMessages`. -/
def blocks (s : IPCServer C J) (type : Str) : Bool := (s.blockingMap.find? type).getD false

theorem ofType_append (type : Str) (msgs msgs' : List (Str × J)) :
    ofType type (msgs ++ msgs') = ofType type msgs ++ ofType type msgs' :=
  filterMap_append

theorem ofType_singleton (type : Str) (msg : Str × J) :
    ofType type [msg] = if msg.1 = type then [msg.2] else [] := by
  unfold ofType
  by_cases h : msg.1 = type
  · simp [h]
  · simp [h]

theorem eq_nil_of_ofType {msgs : List (Str × J)} (h : ∀ type, ofType type msgs = []) :
    msgs = [] := by
  cases msgs with
  | nil => rfl
  | cons msg rest =>
    have htype := h msg.1
    rw [← singleton_append, ofType_append, ofType_singleton, if_pos rfl] at htype
    exact absurd htype (cons_ne_nil _ _)

theorem toList_eq_of_ofType {x y : Option (Str × J)}
    (h : ∀ type, ofType type x.toList = ofType type y.toList) : x = y := by
  cases x with
  | none =>
    have hnil := eq_nil_of_ofType fun type => (h type).symm
    exact (toList_eq_nil_iff.mp hnil).symm
  | some msg =>
    have htype := h msg.1
    rw [toList_some, ofType_singleton, if_pos rfl] at htype
    cases y with
    | none => exact absurd htype (cons_ne_nil _ _)
    | some msg' =>
      rw [toList_some, ofType_singleton] at htype
      split at htype
      · next heq => exact congrArg some (Prod.ext heq.symm (singleton_inj.mp htype))
      · exact absurd htype (cons_ne_nil _ _)

variable (callbacks : OrderedMap Str C)

theorem accepted_of_notMem {stream : Str} (h : 0 ∉ stream) :
    accepted json callbacks stream = [] := by
  unfold accepted
  rw [terminated_of_notMem h]
  rfl

theorem accepted_of_cons {text : Str} (h : 0 ∉ text) (rest : Str) :
    accepted json callbacks (text ++ 0 :: rest) =
      (accept json callbacks text).toList ++ accepted json callbacks rest := by
  unfold accepted
  rw [(terminated_of_cons h rest).1, filterMap_cons]
  cases accept json callbacks text with
  | none => rfl
  | some msg => rfl

theorem accepted_append (stream bytes : Str) :
    accepted json callbacks (stream ++ bytes) =
      accepted json callbacks stream ++
        accepted json callbacks (remainder 0 stream ++ bytes) := by
  unfold accepted
  rw [(terminated_append stream bytes).1, filterMap_append]

/-- Every type with a queue has a callback, and callbacks are called with their types. -/
structure Registered (s : IPCServer C J) : Prop where
  queues : ∀ type, s.msgQueue.contains type = true → s.callbacks.contains type = true
  calls : ∀ call ∈ s.handed, s.callbacks.find? call.type = some call.callback

/-! ## Reading -/

/-- What a step that reads leaves as it is, and that it keeps `Registered`. -/
structure Filled (s s' : IPCServer C J) : Prop where
  connected : s'.connected = s.connected
  callbacks : s'.callbacks = s.callbacks
  handed : s'.handed = s.handed
  registered : Registered s → Registered s'

theorem Filled.refl (s : IPCServer C J) : Filled s s := ⟨rfl, rfl, rfl, id⟩

variable {s s' : IPCServer C J}

theorem Filled.trans {s'' : IPCServer C J} (h : Filled s s') (h' : Filled s' s'') : Filled s s'' :=
  ⟨h'.connected.trans h.connected, h'.callbacks.trans h.callbacks, h'.handed.trans h.handed,
    fun hs => h'.registered (h.registered hs)⟩

theorem receive_cases (s : IPCServer C J) (text : Str) :
    (∃ message, accept json s.callbacks text = none ∧ s.receive json text = s.print message) ∨
      ∃ type msg, accept json s.callbacks text = some (type, msg) ∧
        s.callbacks.contains type = true ∧
        s.receive json text = { s with
          msgQueue := (s.msgQueue.touch type []).put type (queueOf s type ++ [msg]) } := by
  unfold accept receive
  cases json.parse text with
  | error what => exact Or.inl ⟨_, rfl, rfl⟩
  | ok msg =>
    dsimp only
    cases json.typeField msg with
    | missing => exact Or.inl ⟨_, rfl, rfl⟩
    | noString what => exact Or.inl ⟨_, rfl, rfl⟩
    | string type =>
      dsimp only
      rw [getD_find?_touch]
      cases hcontains : s.callbacks.contains type with
      | false => exact Or.inl ⟨_, rfl, rfl⟩
      | true => exact Or.inr ⟨type, msg, rfl, hcontains, rfl⟩

theorem receive_spec (s : IPCServer C J) (text : Str) :
    Filled s (s.receive json text) ∧
      ∀ type, queueOf (s.receive json text) type =
        queueOf s type ++ ofType type (accept json s.callbacks text).toList := by
  rcases receive_cases json s text with ⟨message, hnone, heq⟩ | ⟨type, msg, hsome, hcontains, heq⟩
  · rw [hnone, heq]
    exact ⟨⟨rfl, rfl, rfl, fun h => ⟨h.queues, h.calls⟩⟩, fun type => (append_nil _).symm⟩
  · rw [hsome, heq]
    refine ⟨⟨rfl, rfl, rfl, fun h => ⟨fun type' htype' => ?_, h.calls⟩⟩, fun type' => ?_⟩
    · rcases (contains_put _ _ _ _).mp htype' with rfl | htouch
      · exact hcontains
      · rcases (contains_touch _ _ _ _).mp htouch with rfl | hold
        · exact hcontains
        · exact h.queues type' hold
    · rw [toList_some, ofType_singleton]
      show ((put _ type _).find? type').getD [] = _
      rw [find?_put]
      by_cases heq : type' = type
      · rw [if_pos heq, if_pos heq.symm, heq]
        rfl
      · rw [if_neg heq, if_neg fun h => heq h.symm, getD_find?_touch, append_nil]
        rfl

theorem scan_spec (bytes : Str) {text : Str} (htext : 0 ∉ text) (s : IPCServer C J) :
    Filled s (scan json bytes text s) ∧
      ∀ type, queueOf (scan json bytes text s) type =
        queueOf s type ++ ofType type (accepted json s.callbacks (text ++ bytes)) := by
  induction bytes generalizing text s with
  | nil =>
    rw [append_nil, accepted_of_notMem json s.callbacks htext]
    exact ⟨Filled.refl s, fun type => (append_nil _).symm⟩
  | cons c rest ih =>
    rw [scan]
    by_cases hc : c = 0
    · subst hc
      rw [if_pos rfl]
      obtain ⟨hfilled, hqueue⟩ := receive_spec json s text
      obtain ⟨hfilled', hqueue'⟩ := ih (not_mem_nil) (s.receive json text)
      refine ⟨hfilled.trans hfilled', fun type => ?_⟩
      rw [hqueue', hqueue, hfilled.callbacks, nil_append,
        accepted_of_cons json s.callbacks htext, ofType_append, append_assoc]
    · rw [if_neg hc]
      have hnext : 0 ∉ text ++ [c] := by
        rw [mem_append, mem_singleton, not_or]
        exact ⟨htext, fun h => hc h.symm⟩
      have hrest := ih hnext s
      rw [append_assoc, singleton_append] at hrest
      exact hrest

theorem readMessages_cases (s : IPCServer C J) (outcome : ReadOutcome) :
    ((s.connected && outcome.available) = false ∧ s.readMessages json outcome = s) ∨
      (s.connected && outcome.available) = true ∧
        (((recvLoop outcome.results []).1 = false ∧
            s.readMessages json outcome = s.disconnect) ∨
          ((recvLoop outcome.results []).1 = true ∧
            s.readMessages json outcome = scan json (recvLoop outcome.results []).2 [] s)) := by
  unfold IPCServer.readMessages
  cases s.connected with
  | false => exact Or.inl ⟨rfl, rfl⟩
  | true =>
    cases outcome.available with
    | false => exact Or.inl ⟨rfl, rfl⟩
    | true =>
      refine Or.inr ⟨rfl, ?_⟩
      cases recvLoop outcome.results [] with
      | mk stays bytes =>
        cases stays with
        | false => exact Or.inl ⟨rfl, rfl⟩
        | true => exact Or.inr ⟨rfl, rfl⟩

theorem Registered.readMessages (h : Registered s) (outcome : ReadOutcome) :
    (s.readMessages json outcome).callbacks = s.callbacks ∧
      Registered (s.readMessages json outcome) := by
  rcases readMessages_cases json s outcome with ⟨-, heq⟩ | ⟨-, ⟨-, heq⟩ | ⟨-, heq⟩⟩
  · rw [heq]
    exact ⟨rfl, h⟩
  · rw [heq]
    exact ⟨rfl, ⟨h.queues, h.calls⟩⟩
  · obtain ⟨hfilled, -⟩ :=
      scan_spec json (recvLoop outcome.results []).2 not_mem_nil s
    rw [heq]
    exact ⟨hfilled.callbacks, hfilled.registered h⟩

/-! ## Dispatching -/

/-- What dispatching leaves as it is: it adds nothing to the logs. -/
structure Dispatched (s s' : IPCServer C J) : Prop where
  connected : s'.connected = s.connected
  callbacks : s'.callbacks = s.callbacks
  registered : Registered s'
  logged : ∀ type, logged s' type = logged s type
  blocks : ∀ type, blocks s' type = blocks s type

theorem Dispatched.refl (h : Registered s) : Dispatched s s :=
  ⟨rfl, rfl, h, fun _ => rfl, fun _ => rfl⟩

theorem Dispatched.trans {s'' : IPCServer C J} (h : Dispatched s s') (h' : Dispatched s' s'') :
    Dispatched s s'' :=
  ⟨h'.connected.trans h.connected, h'.callbacks.trans h.callbacks, h'.registered,
    fun type => (h'.logged type).trans (h.logged type),
    fun type => (h'.blocks type).trans (h.blocks type)⟩

theorem Dispatched.handedOf_eq (h : Dispatched s s') {type : Str} (hempty : queueOf s' type = []) :
    handedOf s' type = JsonDelivery.logged s type := by
  rw [← h.logged type, JsonDelivery.logged, hempty, append_nil]

theorem dispatch_cases (h : Registered s) (type : Str) :
    (queueOf s type = [] ∧ s.dispatch type = s) ∨
      ∃ callback, s.callbacks.find? type = some callback ∧
        s.dispatch type = { s with
          handed := s.handed ++ (queueOf s type).map fun item => ⟨type, callback, item⟩
          msgQueue := s.msgQueue.put type [] } := by
  unfold dispatch queueOf
  cases hqueue : s.msgQueue.find? type with
  | none => exact Or.inl ⟨rfl, rfl⟩
  | some vec =>
    have hcontains := h.queues type (congrArg isSome hqueue)
    obtain ⟨callback, hcallback⟩ := isSome_iff_exists.mp hcontains
    refine Or.inr ⟨callback, hcallback, ?_⟩
    rw [hcallback]
    rfl

theorem filterMap_calls (type type' : Str) (callback : C) (vec : List J) :
    (vec.map fun item => (⟨type, callback, item⟩ : Handed C J)).filterMap
        (fun call => if call.type = type' then some call.msg else none) =
      if type' = type then vec else [] := by
  rw [filterMap_map]
  by_cases heq : type' = type
  · rw [if_pos heq]
    refine (filterMap_congr fun item _ => ?_).trans filterMap_some
    exact if_pos heq.symm
  · rw [if_neg heq]
    refine filterMap_eq_nil_iff.mpr fun item _ => ?_
    exact if_neg fun h => heq h.symm

theorem dispatch_spec (h : Registered s) (type : Str) :
    Dispatched s (s.dispatch type) ∧
      ∀ type', queueOf (s.dispatch type) type' = if type' = type then [] else queueOf s type' := by
  rcases dispatch_cases h type with ⟨hempty, heq⟩ | ⟨callback, hcallback, heq⟩
  · rw [heq]
    refine ⟨Dispatched.refl h, fun type' => ?_⟩
    split
    · next htype => rw [htype, hempty]
    · rfl
  · have hqueues : ∀ type', queueOf (s.dispatch type) type' =
        if type' = type then [] else queueOf s type' := by
      intro type'
      rw [heq]
      show ((s.msgQueue.put type []).find? type').getD [] = _
      rw [find?_put, apply_ite (getD · [])]
      rfl
    have hhanded : ∀ type', handedOf (s.dispatch type) type' =
        handedOf s type' ++ if type' = type then queueOf s type else [] := by
      intro type'
      rw [heq, ← filterMap_calls type type' callback (queueOf s type)]
      exact filterMap_append
    refine ⟨⟨by rw [heq], by rw [heq], ?_, fun type' => ?_, fun type' => by rw [heq]; rfl⟩, hqueues⟩
    · rw [heq]
      refine ⟨fun type' htype' => ?_, fun call hcall => ?_⟩
      · rcases (contains_put _ _ _ _).mp htype' with rfl | hold
        · exact congrArg isSome hcallback
        · exact h.queues type' hold
      · rcases mem_append.mp hcall with hold | hnew
        · exact h.calls call hold
        · obtain ⟨item, -, rfl⟩ := mem_map.mp hnew
          exact hcallback
    · unfold logged
      rw [hhanded, hqueues, append_assoc]
      split
      · next htype => rw [htype, append_nil]
      · rw [nil_append]

theorem dispatchIfDue_spec (h : Registered s) (type : Str) :
    Dispatched s (s.dispatchIfDue type) ∧
      ∀ type', queueOf (s.dispatchIfDue type) type' =
        if type' = type ∧ blocks s type = false then [] else queueOf s type' := by
  have htouched : Dispatched s { s with blockingMap := s.blockingMap.touch type false } :=
    ⟨rfl, rfl, ⟨h.queues, h.calls⟩, fun _ => rfl,
      fun type' => getD_find?_touch s.blockingMap type type' false⟩
  obtain ⟨hdispatched, hqueue⟩ := dispatch_spec htouched.registered type
  have heq : s.dispatchIfDue type =
      if !blocks { s with blockingMap := s.blockingMap.touch type false } type &&
        !(queueOf s type).isEmpty
      then dispatch { s with blockingMap := s.blockingMap.touch type false } type
      else { s with blockingMap := s.blockingMap.touch type false } := rfl
  rw [heq, htouched.blocks type]
  cases hblock : blocks s type with
  | true => exact ⟨htouched, fun type' => (if_neg fun hand => absurd hand.2 (by decide)).symm⟩
  | false =>
    cases hempty : (queueOf s type).isEmpty with
    | true =>
      refine ⟨htouched, fun type' => ?_⟩
      show queueOf s type' = if type' = type ∧ false = false then [] else queueOf s type'
      by_cases htype : type' = type
      · rw [if_pos ⟨htype, rfl⟩, htype]
        exact isEmpty_iff.mp hempty
      · rw [if_neg fun hand => htype hand.1]
    | false =>
      refine ⟨htouched.trans hdispatched, fun type' => (hqueue type').trans ?_⟩
      by_cases htype : type' = type
      · rw [if_pos htype, if_pos ⟨htype, rfl⟩]
      · rw [if_neg htype, if_neg fun hand => htype hand.1]
        rfl

theorem foldl_dispatchIfDue_spec (types : List Str) (h : Registered s) :
    Dispatched s (types.foldl dispatchIfDue s) ∧
      ∀ type, blocks s type = false → type ∈ types ∨ queueOf s type = [] →
        queueOf (types.foldl dispatchIfDue s) type = [] := by
  induction types generalizing s with
  | nil =>
    refine ⟨Dispatched.refl h, fun type _ hqueue => ?_⟩
    rcases hqueue with hmem | hempty
    · exact absurd hmem not_mem_nil
    · exact hempty
  | cons first types ih =>
    obtain ⟨hdispatched, hqueues⟩ := dispatchIfDue_spec h first
    obtain ⟨hrest, hempty⟩ := ih hdispatched.registered
    refine ⟨hdispatched.trans hrest, fun type hblock hqueue => ?_⟩
    refine hempty type ((hdispatched.blocks type).trans hblock) ?_
    rcases hqueue with hmem | hnil
    · rcases mem_cons.mp hmem with rfl | hmem
      · exact Or.inr ((hqueues type).trans (if_pos ⟨rfl, hblock⟩))
      · exact Or.inl hmem
    · rw [hqueues, hnil, ite_self]
      exact Or.inr rfl

theorem dispatchMessages_spec (h : Registered s) :
    Dispatched s s.dispatchMessages ∧
      ∀ type, blocks s type = false → queueOf s.dispatchMessages type = [] := by
  obtain ⟨hdispatched, hempty⟩ := foldl_dispatchIfDue_spec (s.msgQueue.values.map Prod.fst) h
  refine ⟨hdispatched, fun type hblock => hempty type hblock ?_⟩
  by_cases hmem : type ∈ s.msgQueue.values.map Prod.fst
  · exact Or.inl hmem
  · right
    unfold queueOf OrderedMap.find?
    rw [(assocFind_eq_none_iff type s.msgQueue.values).mpr hmem]
    rfl

theorem exists_blockLoop_eq (type : Str) (later : List ReadOutcome) (s : IPCServer C J) :
    ∃ used, used <+: later ∧ blockLoop json type later s = used.foldl (readMessages json) s := by
  induction later generalizing s with
  | nil => exact ⟨[], nil_prefix, rfl⟩
  | cons outcome later ih =>
    rw [blockLoop]
    split
    · obtain ⟨used, hused, heq⟩ := ih (s.readMessages json outcome)
      exact ⟨outcome :: used, cons_prefix_cons.mpr ⟨rfl, hused⟩, heq⟩
    · exact ⟨[], nil_prefix, rfl⟩

/-- What handing out messages does: all that has been put into a queue has been handed to the
callback.  `BlockForMessages` and `Loop` read before they hand out. -/
structure HandsOut (s : IPCServer C J) : Prop where
  dispatch : ∀ type, queueOf (s.dispatch type) type = [] ∧
    handedOf (s.dispatch type) type = logged s type
  dispatchMessages : ∀ type, blocks s type = false → queueOf s.dispatchMessages type = [] ∧
    handedOf s.dispatchMessages type = logged s type
  blockForMessages : ∀ type first later, s.msgQueue.contains type = true →
    ∃ used, used <+: later ∧ (s.blockForMessages json type first later).2 =
      ((first :: used).foldl (readMessages json) s).dispatch type
  loop : ∀ accepts outcome, s.connected = true →
    s.loop json accepts outcome = (s.readMessages json outcome).dispatchMessages

theorem Registered.handsOut (h : Registered s) : HandsOut json s := by
  refine ⟨fun type => ?_, fun type hblock => ?_, fun type first later hcontains => ?_,
    fun accepts outcome hconnected => ?_⟩
  · obtain ⟨hdispatched, hqueue⟩ := dispatch_spec h type
    have hempty := (hqueue type).trans (if_pos rfl)
    exact ⟨hempty, hdispatched.handedOf_eq hempty⟩
  · obtain ⟨hdispatched, hqueue⟩ := dispatchMessages_spec h
    exact ⟨hqueue type hblock, hdispatched.handedOf_eq (hqueue type hblock)⟩
  · obtain ⟨used, hused, heq⟩ := exists_blockLoop_eq json type later (s.readMessages json first)
    refine ⟨used, hused, ?_⟩
    unfold IPCServer.blockForMessages
    rw [if_pos hcontains, heq]
    rfl
  · unfold IPCServer.loop IPCServer.checkForConnections
    rw [hconnected]
    rfl

/-! ## Runs -/

/-- What the server does after its callbacks have been added: `Loop` of a connected server is the
first and the second, `BlockForMessages` the first several times and the third. -/
inductive ServerOp where
  | readMessages (outcome : ReadOutcome)
  | dispatchMessages
  | dispatch (type : Str)

def step (s : IPCServer C J) : ServerOp → Option (IPCServer C J)
  | .readMessages outcome => some (s.readMessages json outcome)
  | .dispatchMessages => some s.dispatchMessages
  | .dispatch type => some (s.dispatch type)

/-- A server with a client. -/
def server (registrations : List (Str × C × Bool)) : IPCServer C J :=
  registrations.foldl (fun s r => s.addCallback r.1 r.2.1 r.2.2) { connected := true }

/-- The connection: whether the client is there, and the bytes that `recv` has returned. -/
structure Wire where
  up : Bool := true
  stream : Str := []

def Wire.next (w : Wire) : ServerOp → Wire
  | .readMessages outcome =>
    if w.up && outcome.available then
      ⟨(recvLoop outcome.results []).1, w.stream ++ (recvLoop outcome.results []).2⟩
    else w
  | .dispatchMessages => w
  | .dispatch _ => w

def wire (past : List ServerOp) : Wire := past.foldl Wire.next {}

/-- The first message to end among the bytes of a call is the same with what earlier calls have seen
of it as without. -/
def EndsAlike (callbacks : OrderedMap Str C) (seen bytes : Str) : Prop :=
  ∀ text rest, bytes = text ++ 0 :: rest → 0 ∉ text →
    accept json callbacks text = accept json callbacks (seen ++ text)

/-- The condition for a step: a client that stays has its messages end alike, one that goes ends
none. -/
def Complete (callbacks : OrderedMap Str C) (w : Wire) : ServerOp → Prop
  | .readMessages outcome =>
    w.up = true → outcome.available = true →
      if (recvLoop outcome.results []).1 then
        EndsAlike json callbacks (remainder 0 w.stream) (recvLoop outcome.results []).2
      else
        accepted json callbacks (remainder 0 w.stream ++ (recvLoop outcome.results []).2) = []
  | .dispatchMessages => True
  | .dispatch _ => True

/-- Every message of the stream has been put into the queue of its type once and in order, and what
has left the queues has been handed to the callbacks of their types. -/
structure Delivered (w : Wire) (s : IPCServer C J) : Prop where
  connected : s.connected = w.up
  logged : ∀ type, logged s type = ofType type (accepted json s.callbacks w.stream)
  calls : ∀ call ∈ s.handed, s.callbacks.find? call.type = some call.callback

theorem endsAlike_iff {seen : Str} (hseen : 0 ∉ seen) (bytes : Str) :
    (∀ type, ofType type (accepted json callbacks bytes) =
        ofType type (accepted json callbacks (seen ++ bytes))) ↔
      EndsAlike json callbacks seen bytes := by
  by_cases hmem : 0 ∈ bytes
  · obtain ⟨text, rest, rfl, htext⟩ := eq_append_cons_of_mem hmem
    have hboth : 0 ∉ seen ++ text := by
      rw [mem_append, not_or]
      exact ⟨hseen, htext⟩
    rw [← append_assoc, accepted_of_cons json callbacks htext,
      accepted_of_cons json callbacks hboth]
    simp only [ofType_append, append_cancel_right_eq]
    constructor
    · intro h text' rest' heq htext'
      rcases append_cons_eq_append_cons htext heq with ⟨rfl, -⟩ | ⟨between, rfl, -⟩
      · exact toList_eq_of_ofType h
      · exact absurd (mem_append_right _ mem_cons_self) htext'
    · intro h type
      rw [h text rest rfl htext]
  · have hboth : 0 ∉ seen ++ bytes := by
      rw [mem_append, not_or]
      exact ⟨hseen, hmem⟩
    rw [accepted_of_notMem json callbacks hmem, accepted_of_notMem json callbacks hboth]
    refine iff_of_true (fun _ => rfl) ?_
    rintro text rest rfl
    exact absurd (mem_append_right _ mem_cons_self) hmem

variable {w : Wire}

theorem delivered_append_iff (h : Delivered json w s) (s' : IPCServer C J) {up : Bool}
    (hup : s'.connected = up) (hcallbacks : s'.callbacks = s.callbacks)
    (hhanded : s'.handed = s.handed) (bytes : Str) (added : List (Str × J))
    (hqueue : ∀ type, queueOf s' type = queueOf s type ++ ofType type added) :
    Delivered json ⟨up, w.stream ++ bytes⟩ s' ↔
      ∀ type, ofType type added =
        ofType type (accepted json s.callbacks (remainder 0 w.stream ++ bytes)) := by
  have hlogged : ∀ type, logged s' type =
      ofType type (accepted json s'.callbacks (w.stream ++ bytes)) ↔
        ofType type added =
          ofType type (accepted json s.callbacks (remainder 0 w.stream ++ bytes)) := by
    intro type
    have hold := h.logged type
    unfold logged handedOf at hold ⊢
    rw [hcallbacks, hhanded, hqueue, ← append_assoc, hold, accepted_append, ofType_append,
      append_cancel_left_eq]
  constructor
  · intro hnext type
    exact (hlogged type).mp (hnext.logged type)
  · intro hall
    refine ⟨hup, fun type => (hlogged type).mpr (hall type), ?_⟩
    rw [hcallbacks, hhanded]
    exact h.calls

theorem delivered_readMessages_iff (h : Delivered json w s) (outcome : ReadOutcome) :
    Delivered json (w.next (.readMessages outcome)) (s.readMessages json outcome) ↔
      Complete json s.callbacks w (.readMessages outcome) := by
  unfold Wire.next Complete
  dsimp only
  rcases readMessages_cases json s outcome with ⟨hidle, heq⟩ | ⟨hbusy, hcases⟩
  · rw [h.connected] at hidle
    rw [hidle, heq]
    refine iff_of_true h fun hup havailable => ?_
    rw [hup, havailable] at hidle
    exact absurd hidle (by decide)
  · rw [h.connected] at hbusy
    obtain ⟨hup, havailable⟩ := (Bool.and_eq_true _ _).mp hbusy
    rw [if_pos hbusy]
    simp only [hup, havailable, forall_const]
    rcases hcases with ⟨hgone, heq⟩ | ⟨hstays, heq⟩
    · have hqueue : ∀ type, queueOf s.disconnect type = queueOf s type ++ ofType type [] :=
        fun type => (append_nil _).symm
      have hdown : s.disconnect.connected = false := rfl
      rw [heq, hgone, if_neg (by decide),
        delivered_append_iff json h s.disconnect hdown rfl rfl _ [] hqueue]
      constructor
      · intro hall
        exact eq_nil_of_ofType fun type => (hall type).symm
      · intro hnone type
        rw [hnone]
    · obtain ⟨hfilled, hqueue⟩ :=
        scan_spec json (recvLoop outcome.results []).2 not_mem_nil s
      rw [heq, hstays, if_pos rfl,
        delivered_append_iff json h _ (hfilled.connected.trans (h.connected.trans hup))
          hfilled.callbacks hfilled.handed _ _ hqueue,
        nil_append]
      exact endsAlike_iff json s.callbacks (notMem_remainder w.stream) _

theorem Dispatched.delivered (hdispatched : Dispatched s s') (h : Delivered json w s) :
    Delivered json w s' := by
  refine ⟨hdispatched.connected.trans h.connected, fun type => ?_, hdispatched.registered.calls⟩
  rw [hdispatched.logged, hdispatched.callbacks]
  exact h.logged type

theorem Registered.step (h : Registered s) {op : ServerOp}
    (hstep : JsonDelivery.step json s op = some s') :
    s'.callbacks = s.callbacks ∧ Registered s' := by
  cases op with
  | readMessages outcome =>
    cases hstep
    exact h.readMessages json outcome
  | dispatchMessages =>
    cases hstep
    have hdispatched := (dispatchMessages_spec h).1
    exact ⟨hdispatched.callbacks, hdispatched.registered⟩
  | dispatch type =>
    cases hstep
    have hdispatched := (dispatch_spec h type).1
    exact ⟨hdispatched.callbacks, hdispatched.registered⟩

theorem exists_step (hregistered : Registered s) (h : Delivered json w s) (op : ServerOp) :
    ∃ s', step json s op = some s' ∧
      (Delivered json (w.next op) s' ↔ Complete json s.callbacks w op) := by
  cases op with
  | readMessages outcome => exact ⟨_, rfl, delivered_readMessages_iff json h outcome⟩
  | dispatchMessages =>
    have hdispatched := (dispatchMessages_spec hregistered).1
    exact ⟨_, rfl, iff_of_true (hdispatched.delivered json h) trivial⟩
  | dispatch type =>
    have hdispatched := (dispatch_spec hregistered type).1
    exact ⟨_, rfl, iff_of_true (hdispatched.delivered json h) trivial⟩

/-- What holds while callbacks are added: nothing has been handed out, and queues are empty. -/
structure Fresh (s : IPCServer C J) : Prop where
  connected : s.connected = true
  queues : ∀ type, s.msgQueue.contains type = true → s.callbacks.contains type = true
  empty : ∀ type, queueOf s type = []
  handed : s.handed = []

theorem fresh_server (registrations : List (Str × C × Bool)) :
    Fresh (server registrations : IPCServer C J) := by
  have hadd : ∀ (s : IPCServer C J) (r : Str × C × Bool), Fresh s →
      Fresh (s.addCallback r.1 r.2.1 r.2.2) := by
    intro s r h
    refine ⟨h.connected, fun type htype => ?_, fun type => ?_, h.handed⟩
    · rw [IPCServer.addCallback, contains_put] at htype ⊢
      exact htype.imp_right (h.queues type)
    · show ((s.msgQueue.put r.1 []).find? type).getD [] = []
      rw [find?_put]
      split
      · rfl
      · exact h.empty type
  refine List.foldlRecOn registrations _ ?_ fun s h r _ => hadd s r h
  refine ⟨rfl, fun type htype => ?_, fun type => rfl, rfl⟩
  exact absurd htype Bool.false_ne_true

theorem Fresh.registered (h : Fresh s) : Registered s := by
  refine ⟨h.queues, ?_⟩
  rw [h.handed]
  exact fun call hcall => absurd hcall not_mem_nil

theorem Fresh.delivered (h : Fresh s) : Delivered json {} s := by
  refine ⟨h.connected, fun type => ?_, h.registered.calls⟩
  unfold logged handedOf
  rw [h.handed, h.empty, accepted_of_notMem json s.callbacks not_mem_nil]
  rfl

/-- **The messages of the stream are delivered exactly if every call sees them complete.**  In every
state of every run, what has been put into the queues can be handed out. -/
theorem json_messages_delivered_iff (registrations : List (Str × C × Bool)) (ops : List ServerOp) :
    ((∀ past, past <+: ops → ∃ s, run (step json) (server registrations) past = some s ∧
        Delivered json (wire past) s) ↔
      ∀ past op, past ++ [op] <+: ops →
        Complete json (server registrations : IPCServer C J).callbacks (wire past) op) ∧
    ∀ past s, past <+: ops → run (step json) (server registrations) past = some s →
      HandsOut json s := by
  have hfresh : Fresh (server registrations : IPCServer C J) := fresh_server registrations
  have hguarded : ∀ past, Guarded (step json) (fun _ _ => True)
      (server registrations : IPCServer C J) past :=
    fun _ => guarded_of_forall fun _ _ => trivial
  constructor
  · refine exact_run (I := fun past s => Delivered json (wire past) s)
      (J := fun s => s.callbacks = (server registrations : IPCServer C J).callbacks ∧
        Registered s) ?_ ⟨rfl, hfresh.registered⟩ (hfresh.delivered json) (hguarded ops)
    rintro past s op ⟨hcallbacks, hregistered⟩ hdelivered -
    obtain ⟨s', hstep, hiff⟩ := exists_step json hregistered hdelivered op
    obtain ⟨hcallbacks', hregistered'⟩ := hregistered.step json hstep
    refine ⟨s', hstep, ⟨hcallbacks'.trans hcallbacks, hregistered'⟩, ?_⟩
    unfold wire
    rw [foldl_concat, ← hcallbacks]
    exact hiff
  · intro past s _ hrun
    have hregistered : Registered s :=
      invariant_run (I := Registered) (fun _ _ _ h _ hstep => (h.step json hstep).2)
        hfresh.registered (hguarded past) hrun
    exact hregistered.handsOut json

/-- Objects with the type `a`, by their braces. -/
def braced : JsonOps Str where
  parse text :=
    if text.head? = some 123 ∧ text.getLast? = some 125 then .ok text
    else .error (str "parse error")
  typeField _ := .string (str "a")

/-- A message that comes in two reads is lost, and so is one after which the client goes. -/
theorem split_message_is_lost :
    (accepted braced (empty.put (str "a") ()) (str "\x7b\"type\":\"a\"\x7d" ++ [0]) =
        [(str "a", str "\x7b\"type\":\"a\"\x7d")]) ∧
      ((run (step braced) (server [(str "a", (), false)])
          [.readMessages ⟨true, [.data (str "\x7b\"type\":"), .wouldBlock]⟩,
            .readMessages ⟨true, [.data (str "\"a\"\x7d" ++ [0]), .wouldBlock]⟩]).map
        fun s => (logged s (str "a"), s.printed)) =
          some ([], [str "Error parsing message: parse error\n"]) ∧
      ((run (step braced) (server [(str "a", (), false)])
          [.readMessages ⟨true, [.data (str "\x7b\"type\":\"a\"\x7d" ++ [0]), .closed]⟩]).map
        fun s => (logged s (str "a"), s.printed)) =
          some ([], [str "Client disconnected, closing socket.\n"]) := by
  decide +kernel

end TASQuake.Analysis.JsonDelivery
