import TASQuake.Model.Optimizer
import Mathlib.Logic.Function.Basic

/-!
# Optimizing with several games

The protocol of optimizer_quake.cpp between the game that shows the result (the server) and
the games that run the optimizer (the clients).  `finished`, the efficacies of the iterations that a
client has finished in its current task, is no variable of the code.  What `GameOpt_NewIteration`
does to the script being played, and the messages that carry the goal and the number of iterations,
are left out; neither touches the best runs.
-/

namespace TASQuake

variable {F R A : Type}

/-- The fields of a run that `WriteToBuffer` writes and `ReadFromBuffer` reads.
(optimizer.cpp:614-645) -/
def OptimizerRun.readFromBuffer (self sent : OptimizerRun F R) : OptimizerRun F R :=
  { self with
    efficacy := sent.efficacy
    finishedLevel := sent.finishedLevel
    levelTime := sent.levelTime
    centerPrints := sent.centerPrints
    kills := sent.kills
    secrets := sent.secrets
    items := sent.items
    died := sent.died
    teleportTime := sent.teleportTime
    vecData := sent.vecData
    playbackInfo :=
      { self.playbackInfo with
        currentScript := { self.playbackInfo.currentScript with blocks := sent.script.blocks } } }

/-- `OptimizerRun newRun;`. -/
def OptimizerRun.blank (ops : Arith R) : OptimizerRun F R :=
  { efficacy := ops.lowest, playbackInfo := {}, levelTime := ops.ofInt 0
    teleportTime := ops.ofInt 1000, hp := ops.ofInt 100, ap := ops.ofInt 0 }

/-- A message from the server: a task, with what `Optimizer::Init` is called with, or a run. -/
inductive ClientMessage (F R A : Type) where
  | task (identifier : Int) (playback : PlaybackInfo F) (settings : OptimizerSettings R A)
  | run (identifier : Int) (run : OptimizerRun F R)

/-- The identifier that a message carries. -/
def ClientMessage.identifier : ClientMessage F R A → Int
  | .task identifier _ _ => identifier
  | .run identifier _ => identifier

/-- A message from a client: the identifier of its task and a run. -/
structure ServerMessage (F R : Type) where
  identifier : Int
  run : OptimizerRun F R

/-- The static variables of a client. -/
structure GameClient (F R A : Type) where
  /-- `game_opt_identifier` -/
  identifier : Int
  opt : Optimizer F R A
  /-- `m_dBestEfficacy` -/
  bestEfficacy : R
  /-- `m_bFirstIteration` -/
  firstIteration : Bool
  state : OptimizerState
  finished : List R

/-- The static variables of the server. -/
structure GameServer (F R A : Type) where
  /-- `multi_game_opt_num` -/
  optNum : Int
  opt : Optimizer F R A
  /-- `m_dBestEfficacy` -/
  bestEfficacy : R
  /-- `m_bFirstIteration` -/
  firstIteration : Bool

namespace GameClient

/-- `GameOpt_InitOptimizer`. (optimizer_quake.cpp:503-535) -/
def initOptimizer (ops : Arith R) (alg : AlgorithmOps F R A) (self : GameClient F R A)
    (identifier : Int) (playback : PlaybackInfo F) (settings : OptimizerSettings R A) :
    GameClient F R A :=
  { self with
    identifier := identifier
    firstIteration := true
    opt := self.opt.init ops alg playback settings
    state := .continueIteration
    finished := [] }

/-- The frame that finishes an iteration, which has left `run` in `m_currentRun`.
(optimizer_quake.cpp:606-640) -/
def finishIteration [LinearOrder R] (ops : Arith R) (alg : AlgorithmOps F R A)
    (self : GameClient F R A) (run : OptimizerRun F R) : Option (GameClient F R A) := do
  if self.state = .continueIteration ∧ run.vecData ≠ [] then
    let (opt, state) ← { self.opt with currentRun := run }.finishIteration ops alg
    some { self with
      opt := opt
      state := state
      finished := self.finished ++ [opt.currentRun.efficacy] }
  else none

/-- `GameOpt_NewIteration`, with the run it sends. (optimizer_quake.cpp:581-604) -/
def newIteration [LinearOrder R] (ops : Arith R) (self : GameClient F R A) :
    GameClient F R A × Option (OptimizerRun F R) :=
  let runEfficacy := self.opt.currentBest.efficacy
  let sends := self.firstIteration || decide (self.bestEfficacy < runEfficacy)
  ({ self with
      bestEfficacy := if sends then runEfficacy else self.bestEfficacy
      firstIteration := false
      opt := self.opt.resetIteration ops
      state := .continueIteration },
    if sends then some self.opt.currentBest else none)

/-- `Receive_Optimizer_Run`. (optimizer_quake.cpp:461-481) -/
def receiveRun [LinearOrder R] (ops : Arith R) (self : GameClient F R A) (identifier : Int)
    (sent : OptimizerRun F R) : GameClient F R A :=
  if identifier ≠ self.identifier then self
  else
    let newRun := (OptimizerRun.blank ops).readFromBuffer sent
    if newRun.isBetterThan self.opt.currentBest then
      { self with
        opt := { self.opt with currentBest := newRun }
        bestEfficacy := newRun.efficacy }
    else self

/-- A message from the server. -/
def receive [LinearOrder R] (ops : Arith R) (alg : AlgorithmOps F R A) (self : GameClient F R A) :
    ClientMessage F R A → GameClient F R A
  | .task identifier playback settings => self.initOptimizer ops alg identifier playback settings
  | .run identifier run => self.receiveRun ops identifier run

end GameClient

/-- `MultiGame_ReceiveRun`, with the run that is sent to every client.
(optimizer_quake.cpp:266-315) -/
def GameServer.receiveRun [LinearOrder R] (self : GameServer F R A) (msg : ServerMessage F R) :
    GameServer F R A × Option (OptimizerRun F R) :=
  if msg.identifier ≠ self.optNum then (self, none)
  else
    let run := self.opt.currentRun.readFromBuffer msg.run
    let self := { self with opt := { self.opt with currentRun := run } }
    if self.bestEfficacy < run.efficacy ∨ self.firstIteration then
      ({ self with
          bestEfficacy := run.efficacy
          opt := { self.opt with currentBest := run }
          firstIteration := false },
        some run)
    else (self, none)

/-- The games and the channels between them, oldest message first. -/
structure MultiGame (ι F R A : Type) where
  server : GameServer F R A
  clients : ι → GameClient F R A
  toServer : ι → List (ServerMessage F R)
  toClient : ι → List (ClientMessage F R A)

namespace MultiGame

variable {ι : Type} [DecidableEq ι] [LinearOrder R]

/-- What can happen next. -/
inductive Action (ι F R : Type) where
  /-- a client finishes an iteration -/
  | finish (c : ι) (run : OptimizerRun F R)
  /-- a client starts the next one -/
  | newIteration (c : ι)
  /-- the server handles the next message of a client -/
  | serverReceive (c : ι)
  /-- a client handles the next message of the server -/
  | clientReceive (c : ι)

/-- A client changed. -/
def setClient (self : MultiGame ι F R A) (c : ι) (client : GameClient F R A) :
    MultiGame ι F R A :=
  { self with clients := Function.update self.clients c client }

/-- The effect of an action; `none` if it is not possible. -/
def step (ops : Arith R) (alg : AlgorithmOps F R A) (self : MultiGame ι F R A) :
    Action ι F R → Option (MultiGame ι F R A)
  | .finish c run => (self.clients c |>.finishIteration ops alg run).map (self.setClient c)
  | .newIteration c =>
    if (self.clients c).state = .newIteration then
      let (client, sent) := (self.clients c).newIteration ops
      let msgs := sent.toList.map fun run => ⟨client.identifier, run⟩
      some { self.setClient c client with
        toServer := Function.update self.toServer c (self.toServer c ++ msgs) }
    else none
  | .serverReceive c =>
    match self.toServer c with
    | [] => none
    | msg :: rest =>
      let (server, sent) := self.server.receiveRun msg
      some { self with
        server := server
        toServer := Function.update self.toServer c rest
        -- `SV_BroadCastMessage`
        toClient := fun c' => self.toClient c' ++ sent.toList.map (.run server.optNum) }
  | .clientReceive c =>
    match self.toClient c with
    | [] => none
    | msg :: rest =>
      some { self.setClient c ((self.clients c).receive ops alg msg) with
        toClient := Function.update self.toClient c rest }

end MultiGame

end TASQuake
