import TASQuake.Lib.Matching
import TASQuake.Model.Optimizer
import Mathlib.Analysis.Real.Sqrt

/-!
# The path a run has to take

`FulfillsConditions` goes once over the recorded frames and gives up a node of the path as soon as a
frame comes nearer than 100 units to it.  A frame is used for one node only, so that this decides
whether there are increasing frame indices, one for each node.
-/

namespace TASQuake.Analysis.PathNodes

open Lib RunConditions

variable {F R A : Type} [LinearOrder R]

/-- A frame that passes a node. (optimizer.cpp:435-436) -/
def Near (ops : Arith R) (node : Vec R) (data : FrameData R) : Prop :=
  ops.distance node data.pos < ops.ofInt 100

instance (ops : Arith R) (node : Vec R) (data : FrameData R) : Decidable (Near ops node data) :=
  inferInstanceAs (Decidable (_ < _))

/-- There are frame indices `i 0 < i 1 < …`, one for each node, at which the run passes the
nodes in order. -/
def PassesInOrder (ops : Arith R) (nodes : List (Vec R)) (data : List (FrameData R)) : Prop :=
  ∃ i : Fin nodes.length → Fin data.length, StrictMono i ∧
    ∀ k, Near ops (nodes.get k) (data.get (i k))

/-- The node part of `FulfillsConditions`: `nodeIndex` has reached the end of `m_vecNodes`.
(optimizer.cpp:431-443) -/
def passesNodes (ops : Arith R) (conditions : RunConditions R) (run : OptimizerRun F R) : Bool :=
  (nodesLeft ops conditions.vecNodes run.vecData).isEmpty

theorem fulfillsConditions_eq (ops : Arith R) (conditions : RunConditions R)
    (run : OptimizerRun F R) :
    conditions.fulfillsConditions ops run = (passesNodes ops conditions run &&
      fulfillsConditions ops { conditions with vecNodes := [] } run) := by
  have hnone : (nodesLeft ops [] run.vecData).isEmpty = true := by
    cases run.vecData with
    | nil => rfl
    | cons data rest => rfl
  unfold fulfillsConditions passesNodes
  simp only [hnone, Bool.true_and, Bool.and_assoc]
  rfl

/-! ## The pass over the frames -/

theorem nodesLeft_eq_unmatched (ops : Arith R) (nodes : List (Vec R)) (data : List (FrameData R)) :
    nodesLeft ops nodes data = unmatched (Near ops) nodes data := by
  induction data generalizing nodes with
  | nil =>
    cases nodes with
    | nil => rfl
    | cons node nodes => rfl
  | cons frame data ih =>
    cases nodes with
    | nil => rfl
    | cons node nodes =>
      unfold nodesLeft unmatched
      rw [ih nodes, ih (node :: nodes)]
      rfl

theorem passesNodes_iff (ops : Arith R) (conditions : RunConditions R) (run : OptimizerRun F R) :
    passesNodes ops conditions run = true ↔
      PassesInOrder ops conditions.vecNodes run.vecData := by
  unfold passesNodes PassesInOrder
  rw [List.isEmpty_iff, nodesLeft_eq_unmatched, unmatched_eq_nil_iff, sublistForall₂_iff_strictMono]

/-! ## Sampling -/

omit [LinearOrder R] in
/-- Every sampled node is the position of a frame of its own, however many frames are skipped
first. -/
theorem everyNode_sublist (skip : ℕ) (data : List (FrameData R)) :
    List.SublistForall₂ (fun node frame => node = FrameData.pos frame)
      (everyNode skip data) data := by
  induction data generalizing skip with
  | nil =>
    cases skip with
    | zero => exact .nil
    | succ skip => exact .nil
  | cons frame data ih =>
    cases skip with
    | zero => exact .cons rfl (ih 35)
    | succ skip => exact (ih skip).cons_right

theorem passesInOrder_everyNode {ops : Arith R} (hself : ∀ p, ops.distance p p < ops.ofInt 100)
    (data : List (FrameData R)) : PassesInOrder ops (everyNode 0 data) data := by
  apply sublistForall₂_iff_strictMono.mp
  apply sublistForall₂_imp _ (everyNode_sublist 0 data)
  intro node frame hpos
  subst hpos
  exact hself frame.pos

theorem vecNodes_init (ops : Arith R) {conditions : RunConditions R}
    (hempty : conditions.vecNodes = []) (run : OptimizerRun F R)
    (settings : OptimizerSettings R A) :
    (conditions.init ops run settings).vecNodes =
      if settings.useNodes then everyNode 0 run.vecData else [] := by
  unfold init
  split <;> split <;> simp [hempty]

/-- **The node check is exact.** The node part of `FulfillsConditions` succeeds if and only if the
run passes the nodes at increasing frame indices; the other conditions do not depend on the nodes.
Conditions initialized from a run are passed by that run, if every position is nearer than 100 to
itself. -/
theorem node_check_exact (ops : Arith R) (conditions : RunConditions R) (run : OptimizerRun F R) :
    (passesNodes ops conditions run = true ↔
        PassesInOrder ops conditions.vecNodes run.vecData) ∧
      conditions.fulfillsConditions ops run = (passesNodes ops conditions run &&
        fulfillsConditions ops { conditions with vecNodes := [] } run) ∧
      ((∀ p, ops.distance p p < ops.ofInt 100) → conditions.vecNodes = [] →
        ∀ settings : OptimizerSettings R A,
          passesNodes ops (conditions.init ops run settings) run = true) := by
  refine ⟨passesNodes_iff ops conditions run, fulfillsConditions_eq ops conditions run, ?_⟩
  intro hself hempty settings
  rw [passesNodes_iff, vecNodes_init ops hempty]
  split
  · exact passesInOrder_everyNode hself run.vecData
  · exact ⟨fun k => k.elim0, fun k => k.elim0, fun k => k.elim0⟩

/-! ### Exact distances -/

/-- `Vector::Distance` without rounding. (libtasquake/src/vector.cpp:7-10) -/
noncomputable def distance (p q : Vec ℝ) : ℝ :=
  Real.sqrt ((p.x - q.x) * (p.x - q.x) + (p.y - q.y) * (p.y - q.y) + (p.z - q.z) * (p.z - q.z))

theorem distance_self (p : Vec ℝ) : distance p p = 0 := by
  unfold distance
  simp

/-- The arithmetic of the real numbers. -/
noncomputable def realArith : Arith ℝ :=
  { ofInt := fun n => n
    add := fun a b => a + b
    sub := fun a b => a - b
    neg := fun a => -a
    div := fun a b => a / b
    abs := fun a => |a|
    lowest := -((2 ^ 53 - 1) * 2 ^ 971)
    distance := distance
    unit := fun n => ((n % 2 ^ 32 : ℕ) : ℝ) / (2 ^ 32 - 1) }

/-- A run of 40 frames along an axis. -/
def exampleRun : OptimizerRun ℝ ℝ :=
  { efficacy := 0, playbackInfo := { currentScript := { blocks := [] } }
    vecData := (List.range 40).map fun n => ⟨⟨n, 0, 0⟩, 0⟩
    levelTime := 0, teleportTime := 1000, hp := 100, ap := 0 }

/-- With the distance of the source the run passes the two nodes sampled from it. -/
theorem node_check_exact_own_run :
    (everyNode 0 exampleRun.vecData).length = 2 ∧
      passesNodes realArith ((init realArith { totalHP := 1 } exampleRun
        ({ targetPos := ⟨0, 0, 0⟩, algorithms := [] } : OptimizerSettings ℝ Unit))) exampleRun =
        true := by
  refine ⟨rfl, ?_⟩
  refine (node_check_exact realArith { totalHP := 1 } exampleRun).2.2 (fun p => ?_) rfl _
  show distance p p < ((100 : Int) : ℝ)
  rw [distance_self]
  norm_num

end TASQuake.Analysis.PathNodes
