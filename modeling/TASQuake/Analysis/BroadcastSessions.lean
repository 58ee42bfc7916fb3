import TASQuake.Lib.Run
import TASQuake.Model.IpcEndpoints
import Mathlib.Data.List.Nodup

/-!
# Broadcasts and disconnects

`SV_BroadCastMessage` takes the ids of the sessions once and then looks up each of them under a lock
of its own.  If the other thread has deleted the session in between, `get_session` returns the null
pointer, which `send_message` uses.  `Inv` is what the broadcast knows while it is going on.
-/

namespace TASQuake.Analysis.BroadcastSessions

open Lib Ipc Ipc.Session Ipc.Server Broadcaster List

/-- The steps of the two threads. -/
inductive Action where
  /-- a client connects -/
  | accept
  /-- the read of a session fails -/
  | readFails (session : Ipc.Session)
  /-- the main thread goes on with its broadcast, or starts one -/
  | main
deriving DecidableEq

/-- One step.  A read can only fail for a session that is reading. -/
def step (s : Broadcaster) : Action → Option Broadcaster
  | .accept => some { s with server := s.server.doAccept }
  | .readFails session =>
    if session ∈ s.server.reading then
      (s.server.readFails session).map fun server => { s with server := server }
    else some s
  | .main => s.mainStep

/-- What a broadcast that survives disconnects guarantees: the live sessions have different ids; they
are those whose read has not failed; the session that a message is about to be written to exists;
and when a broadcast is over, every session that was there at its start and still is has been sent
the message once. -/
structure Safe (s : Broadcaster) : Prop where
  distinct : s.server.getSessions.Nodup
  live : s.server.sessions = s.server.reading
  found : ∀ connections, s.main ≠ .writing none connections
  once : s.main = .idle → ∀ x ∈ s.atStart, x ∈ s.server.sessions → s.sent.count x = 1

/-- The condition on a step: a new id is not that of a live session, and a session that is looked up
has not been deleted. -/
def Finds (s : Broadcaster) : Action → Prop
  | .accept => s.server.newSessionId ∉ s.server.getSessions
  | .readFails _ => True
  | .main => ∀ connectionId connections, s.main = .next (connectionId :: connections) →
      connectionId ∈ s.server.getSessions

/-! ## The invariant of a broadcast -/

/-- The message has been sent once for each id of `done`, and to every session of `done` that is still
there. -/
structure Served (s : Broadcaster) (done : List Ipc.Session) : Prop where
  ids : s.sent.map connectionId = done.map connectionId
  sent : ∀ x ∈ done, x ∈ s.server.sessions → x ∈ s.sent

/-- Where the main thread is in its broadcast. -/
def Progress (s : Broadcaster) : Prop :=
  match s.main with
  | .idle => True
  | .next connections => ∃ done todo, s.atStart = done ++ todo ∧
      connections = todo.map connectionId ∧ Served s done
  | .writing session connections => ∃ done x todo, s.atStart = done ++ x :: todo ∧
      connections = todo.map connectionId ∧ Served s done ∧
      ∀ y, session = some y → y.connectionId = x.connectionId ∧ (x ∈ s.server.sessions → y = x)

/-- What every step of a safe run keeps. -/
structure Inv (s : Broadcaster) : Prop where
  created : ∀ x ∈ s.server.sessions, x.object < s.server.created
  startCreated : ∀ x ∈ s.atStart, x.object < s.server.created
  startDistinct : (s.atStart.map connectionId).Nodup
  progress : Progress s

variable {s : Broadcaster}

theorem Safe.nodup (h : Safe s) : s.server.sessions.Nodup := h.distinct.of_map

variable {server : Ipc.Server}

variable {x : Ipc.Session}

/-- The condition on a step, for a server that has not made all the ids yet. -/
def FindsEarly (s : Broadcaster) : Action → Prop
  | .accept => s.server.created < 2 ^ 64
  | a => Finds s a

/-- The ids of the first `2 ^ 64` sessions are their numbers. -/
structure Counted (s : Broadcaster) : Prop where
  next : s.server.newSessionId = s.server.created % 2 ^ 64
  ids : ∀ x ∈ s.server.sessions, x.connectionId = x.object ∧ x.object < s.server.created

theorem Counted.accept (h : Counted s) (hearly : s.server.created < 2 ^ 64) :
    s.server.newSessionId ∉ s.server.getSessions ∧
      Counted { s with server := s.server.doAccept } := by
  have hid := h.next.trans (Nat.mod_eq_of_lt hearly)
  refine ⟨fun htaken => ?_, ?_, fun x hx => ?_⟩
  · obtain ⟨x, hx, heq⟩ := mem_map.mp htaken
    obtain ⟨hsame, hlt⟩ := h.ids x hx
    omega
  · show (s.server.newSessionId + 1) % 2 ^ 64 = (s.server.created + 1) % 2 ^ 64
    rw [hid]
  · rcases mem_append.mp hx with hx | hx
    · exact ⟨(h.ids x hx).1, Nat.lt_succ_of_lt (h.ids x hx).2⟩
    · rw [mem_singleton.mp hx]
      exact ⟨hid, Nat.lt_succ_self _⟩

theorem Counted.step (h : Counted s) {a : Action} (hearly : FindsEarly s a) :
    Finds s a ∧ ∀ s', step s a = some s' → Counted s' := by
  cases a with
  | accept =>
    obtain ⟨hfree, hcounted⟩ := h.accept hearly
    refine ⟨hfree, ?_⟩
    rintro s' ⟨⟩
    exact hcounted
  | readFails x =>
    refine ⟨trivial, fun s' hs => ?_⟩
    rw [BroadcastSessions.step] at hs
    split at hs
    · obtain ⟨server, hfails, rfl⟩ := Option.map_eq_some_iff.mp hs
      unfold readFails deleteSession at hfails
      split at hfails
      · cases hfails
        exact ⟨h.next, fun y hy => h.ids y (mem_filter.mp hy).1⟩
      · cases hfails
    · cases hs
      exact h
  | main =>
    refine ⟨hearly, fun s' hs => ?_⟩
    have hserver : s'.server = s.server := by
      rw [BroadcastSessions.step, mainStep] at hs
      split at hs <;> cases hs <;> rfl
    exact ⟨hserver ▸ h.next, hserver ▸ h.ids⟩

end TASQuake.Analysis.BroadcastSessions
