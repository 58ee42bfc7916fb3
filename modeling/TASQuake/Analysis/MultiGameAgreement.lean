import TASQuake.Analysis.BestRun
import TASQuake.Model.MultiGame
import Mathlib.Order.Bounds.Basic

/-!
# The games agree on the best run

One task with identifier `id`, from the moment the server has sent it; messages of older tasks may
be under way.  For every client, `Link` says that what the client last took for the best efficacy is
known to the server or on its way there, and that the server's best run has reached the client or is
on its way.
-/

namespace TASQuake.Analysis.MultiGameAgreement

open Lib MultiGame BestRun GameClient Function Option List

variable {ι F R A : Type}

/-! ## The task and its iterations -/

/-- The client is working on the task. -/
def Joined (id : Int) (client : GameClient F R A) : Prop := client.identifier = id

/-- The efficacies of the iterations of the task that have been finished, by any client. -/
def finishedEfficacies (id : Int) (s : MultiGame ι F R A) : Set R :=
  {e | ∃ c, Joined id (s.clients c) ∧ e ∈ (s.clients c).finished}

/-- The state in which `SV_StartMultiGameOpt` leaves the server: the task has been sent to all
clients, after whatever else is still on its way to them. -/
structure TaskSent (ops : Arith R) (id : Int) (s : MultiGame ι F R A) : Prop where
  optNum : s.server.optNum = id
  firstIteration : s.server.firstIteration = true
  bestEfficacy : s.server.bestEfficacy = ops.ofInt 0
  clients : ∀ c, (s.clients c).identifier ≠ id
  toServer : ∀ c, ∀ msg ∈ s.toServer c, msg.identifier ≠ id
  toClient : ∀ c, ∃ old playback settings, s.toClient c = old ++ [.task id playback settings] ∧
    ∀ msg ∈ old, msg.identifier ≠ id

/-- No run of the task is on its way, and every client has finished an iteration of the task
and started the next. -/
structure Settled (id : Int) (s : MultiGame ι F R A) : Prop where
  toServer : ∀ c, ∀ msg ∈ s.toServer c, msg.identifier ≠ id
  toClient : ∀ c run, .run id run ∉ s.toClient c
  joined : ∀ c, Joined id (s.clients c)
  finished : ∀ c, (s.clients c).finished ≠ []
  started : ∀ c, (s.clients c).state = .continueIteration

/-! ## Server, client and the channels between them -/

/-- The messages on their way to a client: the task comes before every run of it, and a
client that has joined has no task left to handle. -/
structure Ordered (id : Int) (client : GameClient F R A) (down : List (ClientMessage F R A)) :
    Prop where
  joined : Joined id client → ∀ msg ∈ down, ∃ run, msg = .run id run
  waiting : ¬ Joined id client → ∃ old playback settings rest,
    down = old ++ .task id playback settings :: rest ∧ (∀ msg ∈ old, msg.identifier ≠ id) ∧
      ∀ msg ∈ rest, ∃ run, msg = .run id run

/-- A run that has been finished in the task. -/
def Genuine (U : Set R) (run : OptimizerRun F R) : Prop := run.vecData ≠ [] ∧ run.efficacy ∈ U

theorem Genuine.mono {U V : Set R} {run : OptimizerRun F R} (h : Genuine U run) (hUV : U ⊆ V) :
    Genuine V run := ⟨h.1, hUV h.2⟩

theorem Ordered.congr {id : Int} {client client' : GameClient F R A}
    {down : List (ClientMessage F R A)} (h : Ordered id client down)
    (heq : client'.identifier = client.identifier) : Ordered id client' down :=
  ⟨fun hj => h.joined (heq.symm.trans hj), fun hj => h.waiting fun hj' => hj (heq.trans hj')⟩

/-- What relates the server, one client and the channels between them; `U` is the set of the
efficacies finished so far. -/
structure Link (id : Int) (U : Set R) [LinearOrder R] (server : GameServer F R A)
    (client : GameClient F R A) (up : List (ServerMessage F R))
    (down : List (ClientMessage F R A)) : Prop where
  ordered : Ordered id client down
  upGenuine : ∀ msg ∈ up, msg.identifier = id → Genuine U msg.run
  downGenuine : ∀ run, .run id run ∈ down → Genuine U run ∧ server.firstIteration = false ∧
    run.efficacy ≤ server.bestEfficacy
  best : Joined id client → client.opt.currentBest.vecData ≠ [] →
    client.opt.currentBest.efficacy ∈ U
  covers : Joined id client → ∀ e ∈ client.finished, client.opt.currentBest.vecData ≠ [] ∧
    e ≤ client.opt.currentBest.efficacy
  finished : Joined id client → client.firstIteration = false ∨ client.state ≠ .continueIteration →
    client.finished ≠ []
  fresh : Joined id client → client.firstIteration = true → client.state = .continueIteration →
    client.finished = []
  settled : Joined id client → client.firstIteration = false → client.state = .continueIteration →
    client.opt.currentBest.efficacy ≤ client.bestEfficacy
  sent : Joined id client → client.firstIteration = false →
    (server.firstIteration = false ∧ client.bestEfficacy ≤ server.bestEfficacy) ∨
      ∃ msg ∈ up, msg.identifier = id ∧ client.bestEfficacy ≤ msg.run.efficacy
  heard : server.firstIteration = false →
    (Joined id client ∧ client.opt.currentBest.vecData ≠ [] ∧
      server.bestEfficacy ≤ client.opt.currentBest.efficacy) ∨
    ∃ run, .run id run ∈ down ∧ server.bestEfficacy ≤ run.efficacy

section Link

variable [LinearOrder R] {id : Int} {U V : Set R} {server : GameServer F R A}
  {client : GameClient F R A} {up : List (ServerMessage F R)} {down : List (ClientMessage F R A)}

theorem Link.mono (h : Link id U server client up down) (hUV : U ⊆ V) :
    Link id V server client up down :=
  { h with
    upGenuine := fun msg hm hid => (h.upGenuine msg hm hid).mono hUV
    downGenuine := fun run hrun =>
      ⟨(h.downGenuine run hrun).1.mono hUV, (h.downGenuine run hrun).2⟩
    best := fun hj hne => hUV (h.best hj hne) }

variable {run : OptimizerRun F R}

theorem le_of_not_isBetterThan {best : OptimizerRun F R} (hrun : run.vecData ≠ [])
    (h : ¬ run.isBetterThan best = true) : best.vecData ≠ [] ∧ run.efficacy ≤ best.efficacy := by
  unfold OptimizerRun.isBetterThan at h
  rw [if_neg (by simpa using hrun)] at h
  split at h
  · exact absurd rfl h
  · next hb => exact ⟨by simpa using hb, not_lt.mp fun hlt => h (decide_eq_true hlt)⟩

theorem le_of_isBetterThan {best : OptimizerRun F R} (h : run.isBetterThan best = true)
    (hbest : best.vecData ≠ []) : best.efficacy ≤ run.efficacy := by
  unfold OptimizerRun.isBetterThan at h
  split at h
  · cases h
  · rw [if_neg (by simpa using hbest)] at h
    exact (of_decide_eq_true h).le

variable {alg : AlgorithmOps F R A} {ops : Arith R}

theorem finishIteration_best {opt opt' : Optimizer F R A} {state : OptimizerState}
    (hdata : opt.currentRun.vecData ≠ []) (h : opt.finishIteration ops alg = some (opt', state)) :
    opt'.currentBest.vecData ≠ [] ∧
      opt'.currentRun.efficacy ≤ opt'.currentBest.efficacy ∧
      (opt.currentBest.vecData ≠ [] → opt.currentBest.efficacy ≤ opt'.currentBest.efficacy) ∧
      (opt'.currentBest.efficacy = opt'.currentRun.efficacy ∨
        opt'.currentBest = opt.currentBest) := by
  obtain ⟨hbest, -, heff, -⟩ := finishIteration_spec h
  obtain ⟨hsbest, -, hsdata, -⟩ := scoreRun_spec ops opt
  have hdata' : (opt.scoreRun ops).currentRun.vecData ≠ [] := by
    rw [hsdata]
    exact hdata
  rw [hbest, heff]
  unfold Optimizer.keepBest
  split
  · next hbetter =>
    refine ⟨hdata', le_rfl, ?_, .inl rfl⟩
    intro hold
    rw [← hsbest] at hold ⊢
    exact le_of_isBetterThan hbetter hold
  · next hworse =>
    obtain ⟨hne, hle⟩ := le_of_not_isBetterThan hdata' hworse
    rw [hsbest] at hne hle ⊢
    exact ⟨hne, hle, fun _ => le_rfl, .inr rfl⟩

/-! ### The client acts -/

theorem Link.finish {client' : GameClient F R A} (h : Link id U server client up down) (hUV : U ⊆ V)
    (hfin : client.finishIteration ops alg run = some client')
    (hV : Joined id client' → ∀ e ∈ client'.finished, e ∈ V) :
    Link id V server client' up down := by
  have hmono := h.mono hUV
  unfold finishIteration at hfin
  split at hfin
  · next hrunning =>
    simp only [bind_eq_some, Prod.exists, some.injEq] at hfin
    obtain ⟨opt, state, hopt, rfl⟩ := hfin
    obtain ⟨-, -, -, -, -, -, -, hstate⟩ := finishIteration_spec hopt
    obtain ⟨hne, hle, hold, hsource⟩ := finishIteration_best hrunning.2 hopt
    have hmem : opt.currentRun.efficacy ∈ client.finished ++ [opt.currentRun.efficacy] := by simp
    refine ⟨h.ordered.congr rfl, hmono.upGenuine, hmono.downGenuine, ?_, ?_, ?_, ?_, ?_, hmono.sent,
      ?_⟩
    · intro hj _
      rcases hsource with heq | heq
      · show opt.currentBest.efficacy ∈ V
        rw [heq]
        exact hV hj _ hmem
      · show opt.currentBest.efficacy ∈ V
        rw [heq] at hne ⊢
        exact hmono.best hj hne
    · intro hj e he
      refine ⟨hne, ?_⟩
      rcases mem_append.mp he with he | he
      · obtain ⟨hbest, hcov⟩ := h.covers hj e he
        exact hcov.trans (hold hbest)
      · rw [mem_singleton.mp he]
        exact hle
    · intro _ _
      exact ne_nil_of_mem hmem
    · intro _ _ hcont
      exact absurd hcont hstate
    · intro _ _ hcont
      exact absurd hcont hstate
    · intro hfirst
      rcases h.heard hfirst with ⟨hj, hbest, hcov⟩ | hdown
      · exact .inl ⟨hj, hne, hcov.trans (hold hbest)⟩
      · exact .inr hdown
  · cases hfin

theorem Link.newIteration (h : Link id U server client up down)
    (hstate : client.state = .newIteration) :
    Link id U server (client.newIteration ops).1
      (up ++ (client.newIteration ops).2.toList.map fun run => ⟨client.identifier, run⟩) down := by
  have hcont : client.state ≠ .continueIteration := by
    rw [hstate]
    nofun
  -- the best run of a client that has joined has been finished in the task
  have hbest : Joined id client → Genuine U client.opt.currentBest := by
    intro hj
    obtain ⟨e, he⟩ := exists_mem_of_ne_nil _ (h.finished hj (.inr hcont))
    have hne := (h.covers hj e he).1
    exact ⟨hne, h.best hj hne⟩
  unfold GameClient.newIteration
  simp only
  split
  · next hsends =>
    refine ⟨h.ordered.congr rfl, ?_, h.downGenuine, h.best, h.covers, ?_, nofun, fun _ _ _ => le_rfl, ?_,
      h.heard⟩
    · intro msg hm hid
      rcases mem_append.mp hm with hm | hm
      · exact h.upGenuine msg hm hid
      · obtain rfl : msg = ⟨client.identifier, client.opt.currentBest⟩ := by simpa using hm
        exact hbest hid
    · exact fun hj _ => h.finished hj (.inr hcont)
    · intro hj _
      exact .inr ⟨⟨client.identifier, client.opt.currentBest⟩, by simp, hj, le_rfl⟩
  · next hsends =>
    simp only [Bool.or_eq_true, decide_eq_true_eq, not_or, Bool.not_eq_true, not_lt] at hsends
    obtain ⟨hfirst, hle⟩ := hsends
    have hup : up ++ (none : Option (OptimizerRun F R)).toList.map
        (fun run => (⟨client.identifier, run⟩ : ServerMessage F R)) = up := by simp
    rw [hup]
    refine ⟨h.ordered.congr rfl, h.upGenuine, h.downGenuine, h.best, h.covers, ?_, nofun, fun _ _ _ => hle, ?_,
      h.heard⟩
    · exact fun hj _ => h.finished hj (.inr hcont)
    · exact fun hj _ => h.sent hj hfirst

/-! ### The client handles a message -/

theorem receiveRun_client (ops : Arith R) (client : GameClient F R A) (identifier : Int)
    (run : OptimizerRun F R) :
    (client.receiveRun ops identifier run).identifier = client.identifier ∧
      (client.receiveRun ops identifier run).finished = client.finished := by
  unfold receiveRun
  split
  · exact ⟨rfl, rfl⟩
  · simp only
    split <;> exact ⟨rfl, rfl⟩

theorem Link.wait {msg : ClientMessage F R A} {client' : GameClient F R A}
    (h : Link id U server client up (msg :: down)) (hmsg : msg.identifier ≠ id)
    (hclient : client.identifier ≠ id) (hclient' : client'.identifier ≠ id) :
    Link id U server client' up down := by
  have hne := hclient'
  refine ⟨?_, h.upGenuine, fun run hrun => h.downGenuine run (mem_cons_of_mem _ hrun),
    fun hj => absurd hj hne, fun hj => absurd hj hne, fun hj => absurd hj hne,
    fun hj => absurd hj hne, fun hj => absurd hj hne, fun hj => absurd hj hne, ?_⟩
  · refine ⟨fun hj => absurd hj hne, fun _ => ?_⟩
    obtain ⟨old, playback, settings, rest, heq, hold, hrest⟩ := h.ordered.waiting hclient
    cases old with
    | nil =>
      obtain ⟨rfl, rfl⟩ := cons.inj heq
      exact absurd rfl hmsg
    | cons m old =>
      obtain ⟨rfl, rfl⟩ := cons.inj heq
      exact ⟨old, playback, settings, rest, rfl, fun m' hm' => hold m' (mem_cons_of_mem _ hm'),
        hrest⟩
  · intro hfirst
    rcases h.heard hfirst with ⟨hj, -⟩ | ⟨run, hrun, hle⟩
    · exact absurd hj hclient
    · rcases mem_cons.mp hrun with rfl | hrun
      · exact absurd rfl hmsg
      · exact .inr ⟨run, hrun, hle⟩

theorem Link.join {playback : PlaybackInfo F} {settings : OptimizerSettings R A}
    (h : Link id U server client up (.task id playback settings :: down))
    (hclient : client.identifier ≠ id) :
    Link id U server (client.initOptimizer ops alg id playback settings) up down := by
  refine ⟨?_, h.upGenuine, fun run hrun => h.downGenuine run (mem_cons_of_mem _ hrun),
    fun _ hne => absurd rfl hne, fun _ _ he => absurd he not_mem_nil, ?_, fun _ _ _ => rfl,
    nofun, nofun, ?_⟩
  · refine ⟨fun _ => ?_, fun hj => absurd rfl hj⟩
    obtain ⟨old, playback', settings', rest, heq, hold, hrest⟩ := h.ordered.waiting hclient
    cases old with
    | nil =>
      obtain ⟨-, rfl⟩ := cons.inj heq
      exact hrest
    | cons m old =>
      obtain ⟨rfl, -⟩ := cons.inj heq
      exact absurd rfl (hold _ mem_cons_self)
  · rintro - (hfirst | hstate)
    · cases hfirst
    · exact absurd rfl hstate
  · intro hfirst
    rcases h.heard hfirst with ⟨hj, -⟩ | ⟨run, hrun, hle⟩
    · exact absurd hj hclient
    · rcases mem_cons.mp hrun with hrun | hrun
      · cases hrun
      · exact .inr ⟨run, hrun, hle⟩

theorem Link.receiveRun (h : Link id U server client up (.run id run :: down))
    (hj : Joined id client) : Link id U server (client.receiveRun ops id run) up down := by
  obtain ⟨hgenuine, hfirst, hle⟩ := h.downGenuine run mem_cons_self
  have hordered : ∀ msg ∈ down, ∃ run, msg = .run id run :=
    fun msg hm => h.ordered.joined hj msg (mem_cons_of_mem _ hm)
  have hdown : ∀ r, .run id r ∈ down → Genuine U r ∧ server.firstIteration = false ∧
      r.efficacy ≤ server.bestEfficacy := fun r hr => h.downGenuine r (mem_cons_of_mem _ hr)
  unfold GameClient.receiveRun
  rw [if_neg (not_not.mpr hj.symm)]
  simp only
  split
  · next hbetter =>
    -- the run becomes the best one
    have hkeep := le_of_isBetterThan hbetter
    refine ⟨⟨fun _ => hordered, fun hn => absurd hj hn⟩, h.upGenuine, hdown, fun _ _ => hgenuine.2,
      ?_, h.finished, h.fresh, fun _ _ _ => le_rfl, fun _ _ => .inl ⟨hfirst, hle⟩, ?_⟩
    · intro _ e he
      obtain ⟨hne, hcov⟩ := h.covers hj e he
      exact ⟨hgenuine.1, hcov.trans (hkeep hne)⟩
    · intro _
      rcases h.heard hfirst with ⟨-, hne, hcov⟩ | ⟨r, hr, hcov⟩
      · exact .inl ⟨hj, hgenuine.1, hcov.trans (hkeep hne)⟩
      · rcases mem_cons.mp hr with hr | hr
        · cases hr
          exact .inl ⟨hj, hgenuine.1, hcov⟩
        · exact .inr ⟨r, hr, hcov⟩
  · next hworse =>
    have hdata := hgenuine.1
    obtain ⟨hne, hcov⟩ := le_of_not_isBetterThan hdata hworse
    refine ⟨⟨fun _ => hordered, fun hn => absurd hj hn⟩, h.upGenuine, hdown, h.best, h.covers,
      h.finished, h.fresh, h.settled, h.sent, ?_⟩
    · intro _
      rcases h.heard hfirst with hheard | ⟨r, hr, hcov'⟩
      · exact .inl hheard
      · rcases mem_cons.mp hr with hr | hr
        · cases hr
          exact .inl ⟨hj, hne, hcov'.trans hcov⟩
        · exact .inr ⟨r, hr, hcov'⟩

theorem Link.receive {msg : ClientMessage F R A} (h : Link id U server client up (msg :: down)) :
    Link id U server (client.receive ops alg msg) up down := by
  by_cases hj : Joined id client
  · obtain ⟨run, rfl⟩ := h.ordered.joined hj msg mem_cons_self
    exact h.receiveRun hj
  · by_cases hmsg : msg.identifier = id
    · -- the first message of the task that a client handles is the task itself
      obtain ⟨old, playback, settings, rest, heq, hold, -⟩ := h.ordered.waiting hj
      cases old with
      | nil =>
        obtain ⟨rfl, -⟩ := cons.inj heq
        exact h.join hj
      | cons m old =>
        obtain ⟨rfl, -⟩ := cons.inj heq
        exact absurd hmsg (hold _ mem_cons_self)
    · refine h.wait hmsg hj ?_
      cases msg with
      | task identifier playback settings => exact hmsg
      | run identifier run =>
        show (client.receiveRun ops identifier run).identifier ≠ id
        rw [(receiveRun_client ops client identifier run).1]
        exact hj

/-! ### The server handles a message -/

theorem receiveRun_cases (server : GameServer F R A) (msg : ServerMessage F R) :
    (msg.identifier ≠ server.optNum ∧ server.receiveRun msg = (server, none)) ∨
    (msg.identifier = server.optNum ∧
      (server.firstIteration = false → server.bestEfficacy < msg.run.efficacy) ∧
      ∃ run, run.efficacy = msg.run.efficacy ∧ run.vecData = msg.run.vecData ∧
        (server.receiveRun msg).2 = some run ∧
        (server.receiveRun msg).1.firstIteration = false ∧
        (server.receiveRun msg).1.bestEfficacy = msg.run.efficacy ∧
        (server.receiveRun msg).1.opt.currentBest = run) ∨
    (msg.identifier = server.optNum ∧ server.firstIteration = false ∧
      msg.run.efficacy ≤ server.bestEfficacy ∧ (server.receiveRun msg).2 = none ∧
      (server.receiveRun msg).1.firstIteration = false ∧
      (server.receiveRun msg).1.bestEfficacy = server.bestEfficacy ∧
      (server.receiveRun msg).1.opt.currentBest = server.opt.currentBest) := by
  unfold GameServer.receiveRun
  by_cases hid : msg.identifier = server.optNum
  · rw [if_neg (not_not.mpr hid)]
    simp only
    split
    · next hbetter =>
      refine .inr (.inl ⟨hid, ?_, server.opt.currentRun.readFromBuffer msg.run, rfl, rfl, rfl, rfl, rfl,
        rfl⟩)
      intro hfirst
      rcases hbetter with hlt | htrue
      · exact hlt
      · have htrue' := htrue
        rw [hfirst] at htrue'
        cases htrue'
    · next hworse =>
      obtain ⟨hle, hfirst⟩ := not_or.mp hworse
      have hfirst' : server.firstIteration = false := by simpa using hfirst
      exact .inr (.inr ⟨hid, hfirst', not_lt.mp hle, rfl, hfirst', rfl, rfl⟩)
  · rw [if_pos hid]
    exact .inl ⟨hid, rfl⟩

theorem receiveRun_optNum (server : GameServer F R A) (msg : ServerMessage F R) :
    (server.receiveRun msg).1.optNum = server.optNum := by
  unfold GameServer.receiveRun
  split
  · rfl
  · simp only
    split <;> rfl

omit [LinearOrder R] in
theorem Ordered.concat (h : Ordered id client down) (run : OptimizerRun F R) :
    Ordered id client (down ++ [.run id run]) := by
  have hconcat : ∀ {msgs : List (ClientMessage F R A)}, (∀ msg ∈ msgs, ∃ r, msg = .run id r) →
      ∀ msg ∈ msgs ++ [.run id run], ∃ r, msg = .run id r := by
    intro msgs hmsgs msg hm
    rcases mem_append.mp hm with hm | hm
    · exact hmsgs msg hm
    · exact ⟨run, mem_singleton.mp hm⟩
  refine ⟨fun hj => hconcat (h.joined hj), fun hj => ?_⟩
  obtain ⟨old, playback, settings, rest, rfl, hold, hrest⟩ := h.waiting hj
  exact ⟨old, playback, settings, rest ++ [.run id run], by simp, hold, hconcat hrest⟩

theorem Link.serverReceive {msg : ServerMessage F R} {up' : List (ServerMessage F R)}
    (h : Link id U server client up down) (hnum : server.optNum = id)
    (hmsg : msg.identifier = id → Genuine U msg.run) (hsub : ∀ m ∈ up', m ∈ up)
    (hleft : ∀ m ∈ up, m ∈ up' ∨ m = msg) :
    Link id U (server.receiveRun msg).1 client up'
      (down ++ (server.receiveRun msg).2.toList.map (.run id)) := by
  have hup : ∀ m ∈ up', m.identifier = id → Genuine U m.run := fun m hm => h.upGenuine m (hsub m hm)
  rcases receiveRun_cases server msg with ⟨hid, heq⟩ | ⟨hid, hlt, run, heff, hdata, hsent, hfirst,
    hbest, -⟩ | ⟨hid, hfirst, hle, hsent, hfirst', hbest, -⟩
  · -- discarded: it was not the message that the client relies on
    rw [hnum] at hid
    rw [heq]
    simp only [toList_none, map_nil, append_nil]
    refine ⟨h.ordered, hup, h.downGenuine, h.best, h.covers, h.finished, h.fresh, h.settled, ?_,
      h.heard⟩
    intro hj hf
    rcases h.sent hj hf with hs | ⟨m, hm, hmid, hcov⟩
    · exact .inl hs
    · rcases hleft m hm with hm' | rfl
      · exact .inr ⟨m, hm', hmid, hcov⟩
      · exact absurd hmid hid
  · -- taken, and sent to every client
    rw [hnum] at hid
    have hgenuine := hmsg hid
    rw [hsent]
    simp only [toList_some, map_cons, map_nil]
    refine ⟨h.ordered.concat run, hup, ?_, h.best, h.covers, h.finished, h.fresh, h.settled, ?_, ?_⟩
    · intro r hr
      rw [hbest]
      rcases mem_append.mp hr with hr | hr
      · obtain ⟨hg, hf, hcov⟩ := h.downGenuine r hr
        exact ⟨hg, hfirst, hcov.trans (hlt hf).le⟩
      · have hrun : r = run := by simpa using hr
        subst hrun
        refine ⟨⟨?_, ?_⟩, hfirst, heff.le⟩
        · rw [hdata]
          exact hgenuine.1
        · rw [heff]
          exact hgenuine.2
    · intro hj hf
      rw [hbest]
      rcases h.sent hj hf with ⟨hsf, hcov⟩ | ⟨m, hm, hmid, hcov⟩
      · exact .inl ⟨hfirst, hcov.trans (hlt hsf).le⟩
      · rcases hleft m hm with hm' | rfl
        · exact .inr ⟨m, hm', hmid, hcov⟩
        · exact .inl ⟨hfirst, hcov⟩
    · intro _
      rw [hbest]
      exact .inr ⟨run, by simp, heff.ge⟩
  · -- not better than the best one
    rw [hsent]
    simp only [toList_none, map_nil, append_nil]
    refine ⟨h.ordered, hup, ?_, h.best, h.covers, h.finished, h.fresh, h.settled, ?_, ?_⟩
    · intro r hr
      rw [hbest]
      exact ⟨(h.downGenuine r hr).1, hfirst', (h.downGenuine r hr).2.2⟩
    · intro hj hf
      rw [hbest]
      rcases h.sent hj hf with ⟨hsf, hcov⟩ | ⟨m, hm, hmid, hcov⟩
      · exact .inl ⟨hfirst', hcov⟩
      · rcases hleft m hm with hm' | rfl
        · exact .inr ⟨m, hm', hmid, hcov⟩
        · exact .inl ⟨hfirst', hcov.trans hle⟩
    · intro _
      rw [hbest]
      exact h.heard hfirst

/-! ### The efficacies when nothing is on its way -/

theorem Link.settled_eq (h : Link id U server client up down) (hj : Joined id client)
    (hfin : client.finished ≠ []) (hstate : client.state = .continueIteration)
    (hup : ∀ msg ∈ up, msg.identifier ≠ id) (hdown : ∀ run, .run id run ∉ down) :
    server.firstIteration = false ∧ client.opt.currentBest.efficacy = server.bestEfficacy ∧
      ∀ e ∈ client.finished, e ≤ server.bestEfficacy := by
  have hfirst : client.firstIteration = false := by
    cases heq : client.firstIteration with
    | false => rfl
    | true => exact absurd (h.fresh hj heq hstate) hfin
  -- client ≤ what it last sent ≤ server ≤ client
  have hclient := h.settled hj hfirst hstate
  obtain ⟨hserver, hsent⟩ : server.firstIteration = false ∧
      client.bestEfficacy ≤ server.bestEfficacy := by
    rcases h.sent hj hfirst with hs | ⟨msg, hm, hid, -⟩
    · exact hs
    · exact absurd hid (hup msg hm)
  have hheard : server.bestEfficacy ≤ client.opt.currentBest.efficacy := by
    rcases h.heard hserver with ⟨-, -, hle⟩ | ⟨run, hrun, -⟩
    · exact hle
    · exact absurd hrun (hdown run)
  have heq := le_antisymm (hclient.trans hsent) hheard
  refine ⟨hserver, heq, fun e he => ?_⟩
  rw [← heq]
  exact (h.covers hj e he).2

end Link

/-! ## The whole system -/

section System

variable [DecidableEq ι] [LinearOrder R] {id : Int} {s t : MultiGame ι F R A}

/-- The invariant of a task. -/
structure Inv (id : Int) (s : MultiGame ι F R A) : Prop where
  optNum : s.server.optNum = id
  best : s.server.firstIteration = false →
    s.server.opt.currentBest.efficacy = s.server.bestEfficacy ∧
      s.server.bestEfficacy ∈ finishedEfficacies id s
  link : ∀ c, Link id (finishedEfficacies id s) s.server (s.clients c) (s.toServer c) (s.toClient c)

omit [DecidableEq ι] in
theorem TaskSent.inv {ops : Arith R} (h : TaskSent ops id s) : Inv id s := by
  have hserver : s.server.firstIteration ≠ false := by
    rw [h.firstIteration]
    nofun
  refine ⟨h.optNum, fun hf => absurd hf hserver, fun c => ?_⟩
  have hne := h.clients c
  obtain ⟨old, playback, settings, hdown, hold⟩ := h.toClient c
  refine ⟨⟨fun hj => absurd hj hne, fun _ => ⟨old, playback, settings, [], hdown, hold,
      fun _ hm => absurd hm not_mem_nil⟩⟩,
    fun msg hm hid => absurd hid (h.toServer c msg hm), ?_, fun hj => absurd hj hne,
    fun hj => absurd hj hne, fun hj => absurd hj hne, fun hj => absurd hj hne,
    fun hj => absurd hj hne, fun hj => absurd hj hne, fun hf => absurd hf hserver⟩
  intro run hrun
  rw [hdown] at hrun
  rcases mem_append.mp hrun with hrun | hrun
  · exact absurd rfl (hold _ hrun)
  · cases mem_singleton.mp hrun

omit [DecidableEq ι] in
theorem Inv.update {c : ι} (h : Inv id s) (hserver : t.server = s.server)
    (hother : ∀ c', c' ≠ c → t.clients c' = s.clients c' ∧ t.toServer c' = s.toServer c' ∧
      t.toClient c' = s.toClient c')
    (hjoined : Joined id (s.clients c) → Joined id (t.clients c) ∧
      ∀ e ∈ (s.clients c).finished, e ∈ (t.clients c).finished)
    (hlink : finishedEfficacies id s ⊆ finishedEfficacies id t →
      Link id (finishedEfficacies id t) s.server (t.clients c) (t.toServer c) (t.toClient c)) :
    Inv id t := by
  have hmono : finishedEfficacies id s ⊆ finishedEfficacies id t := by
    rintro e ⟨c', hj, he⟩
    by_cases hc : c' = c
    · subst hc
      exact ⟨c', (hjoined hj).1, (hjoined hj).2 e he⟩
    · refine ⟨c', ?_⟩
      rw [(hother c' hc).1]
      exact ⟨hj, he⟩
  refine ⟨hserver ▸ h.optNum, ?_, fun c' => ?_⟩
  · rw [hserver]
    exact fun hf => ⟨(h.best hf).1, hmono (h.best hf).2⟩
  · rw [hserver]
    by_cases hc : c' = c
    · subst hc
      exact hlink hmono
    · obtain ⟨hclient, hup, hdown⟩ := hother c' hc
      rw [hclient, hup, hdown]
      exact (h.link c').mono hmono

theorem Inv.finish {ops : Arith R} {alg : AlgorithmOps F R A} {c : ι} {run : OptimizerRun F R}
    (h : Inv id s) (hstep : s.step ops alg (.finish c run) = some t) : Inv id t := by
  obtain ⟨client, hfin, rfl⟩ := map_eq_some_iff.mp hstep
  have hclient : (s.setClient c client).clients c = client := update_self ..
  have hsame : client.identifier = (s.clients c).identifier ∧
      ∀ e ∈ (s.clients c).finished, e ∈ client.finished := by
    unfold finishIteration at hfin
    split at hfin
    · simp only [bind_eq_some, Prod.exists, some.injEq] at hfin
      obtain ⟨opt, state, -, rfl⟩ := hfin
      exact ⟨rfl, fun e he => mem_append_left _ he⟩
    · cases hfin
  refine h.update (c := c) rfl ?_ ?_ ?_
  · exact fun c' hc => ⟨update_of_ne hc .., rfl, rfl⟩
  · rw [hclient]
    exact fun hj => ⟨hsame.1.trans hj, hsame.2⟩
  · rw [hclient]
    intro hmono
    refine (h.link c).finish hmono hfin fun hj e he => ⟨c, ?_⟩
    rw [hclient]
    exact ⟨hj, he⟩

theorem Inv.newIteration {ops : Arith R} {alg : AlgorithmOps F R A} {c : ι}
    (h : Inv id s) (hstep : s.step ops alg (.newIteration c) = some t) : Inv id t := by
  simp only [step] at hstep
  split at hstep
  · next hstate =>
    cases hstep
    refine h.update (c := c) rfl ?_ ?_ ?_
    · exact fun c' hc => ⟨update_of_ne hc .., update_of_ne hc .., rfl⟩
    · simp only [setClient, update_self]
      exact fun hj => ⟨hj, fun e he => he⟩
    · intro hmono
      simp only [setClient, update_self]
      exact ((h.link c).newIteration hstate).mono hmono
  · cases hstep

theorem Inv.clientReceive {ops : Arith R} {alg : AlgorithmOps F R A} {c : ι}
    (h : Inv id s) (hstep : s.step ops alg (.clientReceive c) = some t) : Inv id t := by
  have hlink := h.link c
  simp only [step] at hstep
  split at hstep
  · cases hstep
  · next msg rest hdown =>
    cases hstep
    rw [hdown] at hlink
    refine h.update (c := c) rfl ?_ ?_ ?_
    · exact fun c' hc => ⟨update_of_ne hc .., rfl, update_of_ne hc ..⟩
    · simp only [setClient, update_self]
      intro hj
      -- only runs are left on the way to a client that has joined
      obtain ⟨run, rfl⟩ := hlink.ordered.joined hj msg mem_cons_self
      obtain ⟨hid, hfin⟩ := receiveRun_client ops (s.clients c) id run
      refine ⟨hid.trans hj, fun e he => ?_⟩
      show e ∈ ((s.clients c).receiveRun ops id run).finished
      rw [hfin]
      exact he
    · intro hmono
      simp only [setClient, update_self]
      exact hlink.receive.mono hmono

theorem Inv.serverReceive {ops : Arith R} {alg : AlgorithmOps F R A} {c : ι}
    (h : Inv id s) (hstep : s.step ops alg (.serverReceive c) = some t) : Inv id t := by
  simp only [step] at hstep
  split at hstep
  · cases hstep
  · next msg rest hup =>
    cases hstep
    have hmsg := (h.link c).upGenuine msg (by simp [hup])
    refine ⟨(receiveRun_optNum s.server msg).trans h.optNum, ?_, fun c' => ?_⟩
    · show (s.server.receiveRun msg).1.firstIteration = false →
        (s.server.receiveRun msg).1.opt.currentBest.efficacy =
            (s.server.receiveRun msg).1.bestEfficacy ∧
          (s.server.receiveRun msg).1.bestEfficacy ∈ finishedEfficacies id s
      rcases receiveRun_cases s.server msg with ⟨-, heq⟩ | ⟨hid, -, run, heff, -, -, -, hbest, hrun⟩ |
        ⟨-, hfirst, -, -, -, hbest, hrun⟩
      · rw [heq]
        exact h.best
      · intro _
        rw [hbest, hrun]
        exact ⟨heff, (hmsg (hid.trans h.optNum)).2⟩
      · intro _
        rw [hbest, hrun]
        exact h.best hfirst
    · have hlink : ∀ up', (∀ m ∈ up', m ∈ s.toServer c') → (∀ m ∈ s.toServer c', m ∈ up' ∨ m = msg) →
          Link id (finishedEfficacies id s) (s.server.receiveRun msg).1 (s.clients c') up'
            (s.toClient c' ++ (s.server.receiveRun msg).2.toList.map
              (.run (s.server.receiveRun msg).1.optNum)) := by
        rw [receiveRun_optNum, h.optNum]
        exact fun up' => (h.link c').serverReceive h.optNum hmsg
      refine hlink (Function.update s.toServer c rest c') ?_ ?_
      · intro m hm
        by_cases hc : c' = c
        · subst hc
          rw [update_self] at hm
          rw [hup]
          exact mem_cons_of_mem _ hm
        · rwa [update_of_ne hc] at hm
      · intro m hm
        by_cases hc : c' = c
        · subst hc
          rw [hup] at hm
          rw [update_self]
          exact (mem_cons.mp hm).symm
        · rw [update_of_ne hc]
          exact .inl hm

theorem inv_step {ops : Arith R} {alg : AlgorithmOps F R A} {a : Action ι F R} (h : Inv id s)
    (hstep : s.step ops alg a = some t) : Inv id t := by
  cases a with
  | finish c run => exact h.finish hstep
  | newIteration c => exact h.newIteration hstep
  | serverReceive c => exact h.serverReceive hstep
  | clientReceive c => exact h.clientReceive hstep

omit [DecidableEq ι] in
theorem Inv.agree [Nonempty ι] (h : Inv id s) (hsettled : Settled id s) :
    IsGreatest (finishedEfficacies id s) s.server.bestEfficacy ∧
      s.server.opt.currentBest.efficacy = s.server.bestEfficacy ∧
      ∀ c, (s.clients c).opt.currentBest.efficacy = s.server.bestEfficacy := by
  have hclient := fun c => (h.link c).settled_eq (hsettled.joined c) (hsettled.finished c)
    (hsettled.started c) (hsettled.toServer c) (hsettled.toClient c)
  obtain ⟨c₀⟩ := ‹Nonempty ι›
  obtain ⟨hbest, hmem⟩ := h.best (hclient c₀).1
  refine ⟨⟨hmem, ?_⟩, hbest, fun c => (hclient c).2.1⟩
  rintro e ⟨c, -, he⟩
  exact (hclient c).2.2 e he

/-- **The games agree on the best run.** Whatever the interleaving: whenever no run of the task is
on its way and every client has finished an iteration and started the next, the server's
`m_dBestEfficacy`, its best run and the best run of every client all have the greatest efficacy of
the iterations finished in the task.  A run that carries another identifier changes nothing. -/
theorem games_agree_on_best_run [Nonempty ι] (ops : Arith R) (alg : AlgorithmOps F R A) (id : Int)
    (s t : MultiGame ι F R A) (hs : TaskSent ops id s) (actions : List (Action ι F R))
    (hrun : run (step ops alg) s actions = some t) :
    (Settled id t →
      IsGreatest (finishedEfficacies id t) t.server.bestEfficacy ∧
        t.server.opt.currentBest.efficacy = t.server.bestEfficacy ∧
        ∀ c, (t.clients c).opt.currentBest.efficacy = t.server.bestEfficacy) ∧
    t.server.optNum = id ∧
    (∀ msg : ServerMessage F R, msg.identifier ≠ t.server.optNum →
      t.server.receiveRun msg = (t.server, none)) ∧
    ∀ c identifier (sent : OptimizerRun F R), identifier ≠ (t.clients c).identifier →
      (t.clients c).receiveRun ops identifier sent = t.clients c := by
  have hall : Guarded (step ops alg) (fun _ _ => True) s actions :=
    guarded_of_forall fun _ _ => trivial
  have hinv : Inv id t :=
    invariant_run (fun _ _ _ h _ hstep => inv_step h hstep) hs.inv hall hrun
  refine ⟨hinv.agree, hinv.optNum, fun msg hid => ?_, fun c identifier sent hid => ?_⟩
  · unfold GameServer.receiveRun
    rw [if_pos hid]
  · unfold receiveRun
    rw [if_pos hid]

end System

/-! ### A run of two clients -/

/-- An iteration that ends at `x`. -/
def exampleRun (x : Int) : OptimizerRun Int Int :=
  { exampleOptimizer.currentRun with vecData := [⟨⟨x, 0, 0⟩, 0⟩] }

/-- The task 1 has been sent to two clients. -/
def exampleTaskSent : MultiGame Bool Int Int Unit :=
  { server :=
      { optNum := 1, opt := exampleOptimizer, bestEfficacy := 0, firstIteration := true }
    clients := fun _ =>
      { identifier := -1, opt := exampleOptimizer, bestEfficacy := 0, firstIteration := true
        state := .stop, finished := [] }
    toServer := fun _ => []
    toClient := fun _ => [.task 1 {} exampleSettings] }

/-- The better of two first iterations reaches the server first and the other client last. -/
def exampleActions : List (Action Bool Int Int) :=
  [.clientReceive false, .clientReceive true, .finish false (exampleRun 5), .newIteration false,
    .finish true (exampleRun 7), .newIteration true, .serverReceive true, .serverReceive false,
    .clientReceive false, .clientReceive true]

theorem exampleTaskSent_taskSent : TaskSent exampleArith 1 exampleTaskSent where
  optNum := rfl
  firstIteration := rfl
  bestEfficacy := rfl
  clients := fun _ => (by decide : (-1 : Int) ≠ 1)
  toServer := fun _ _ hm => absurd hm not_mem_nil
  toClient := fun _ => ⟨[], {}, exampleSettings, rfl, fun _ hm => absurd hm not_mem_nil⟩

theorem games_agree_on_best_run_two_clients :
    ∃ t, run (step exampleArith exampleAlgorithms) exampleTaskSent
        exampleActions = some t ∧ Settled 1 t ∧ t.server.bestEfficacy = 7 ∧
      IsGreatest (finishedEfficacies 1 t) t.server.bestEfficacy ∧
      ∀ c, (t.clients c).opt.currentBest.efficacy = t.server.bestEfficacy := by
  obtain ⟨t, ht⟩ : ∃ t, run (step exampleArith exampleAlgorithms)
      exampleTaskSent exampleActions = some t := ⟨_, rfl⟩
  have hbest : t.server.bestEfficacy = 7 := by
    cases ht
    rfl
  have hsettled : Settled 1 t := by
    cases ht
    refine ⟨?_, ?_, ?_, ?_, ?_⟩
    · rintro (_ | _) msg hm <;> exact absurd hm not_mem_nil
    · rintro (_ | _) run hm <;> exact absurd hm not_mem_nil
    · rintro (_ | _) <;> rfl
    · rintro (_ | _) <;> nofun
    · rintro (_ | _) <;> rfl
  obtain ⟨hagree, -⟩ := games_agree_on_best_run exampleArith exampleAlgorithms 1
    exampleTaskSent t exampleTaskSent_taskSent exampleActions ht
  exact ⟨t, ht, hsettled, hbest, (hagree hsettled).1, (hagree hsettled).2.2⟩

end TASQuake.Analysis.MultiGameAgreement
