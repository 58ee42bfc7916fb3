import TASQuake.Model.Optimizer
import Mathlib.Algebra.Group.Int.Defs

/-!
# The searches of the optimizer's algorithms

The arithmetic that the algorithms of optimizer.cpp share, and the three searches that some of
them run over several iterations: `RollingStone`, `CliffFinder` and `BinSearcher`.

Floats are the elements of `F`, doubles those of `R`; `MutatorArith` has the operations and
the conversions between the two.
-/

namespace TASQuake

/-- The arithmetic on doubles that the algorithms need, and the conversions. -/
structure MutatorArith (F R : Type) extends Arith R where
  mul : R → R → R
  /-- `std::fmod` -/
  fmod : R → R → R
  /-- `M_PI` -/
  pi : R
  /-- the conversion of a double to an integer -/
  trunc : R → Int
  /-- the conversion of a double to a float -/
  toFloat : R → F
  /-- the conversion of a float to a double -/
  ofFloat : F → R

namespace MutatorArith

variable {F R : Type} (ops : MutatorArith F R)

/-- A literal of the source that is not an integer. -/
def frac (numerator denominator : Int) : R :=
  ops.div (ops.ofInt numerator) (ops.ofInt denominator)

/-- `NormalizeDeg`. (libtasquake/src/utils.cpp:32-41) -/
def normalizeDeg [LinearOrder R] (a : R) : R :=
  let a := ops.fmod a (ops.ofInt 360)
  let a :=
    if ops.ofInt 180 ≤ a then ops.sub a (ops.ofInt 360)
    else if a < ops.ofInt (-180) then ops.add a (ops.ofInt 360)
    else a
  ops.ofFloat (ops.toFloat a)

/-- `NormalizeRad`. (libtasquake/src/utils.cpp:43-52) -/
def normalizeRad [LinearOrder R] (a : R) : R :=
  let turn := ops.mul ops.pi (ops.ofInt 2)
  let a := ops.fmod a turn
  if ops.pi ≤ a then ops.sub a turn
  else if a < ops.neg ops.pi then ops.add a turn
  else a

/-- `Optimizer::Random`. (optimizer.cpp:141-145) -/
def random (lo hi : R) (rng : Draws) : R × Draws :=
  let (r, rng) := draw rng
  (ops.add lo (ops.mul (ops.sub hi lo) (ops.unit r)), rng)

/-- The test `opt->Random(0, 1) > threshold`. -/
def randomAbove [LinearOrder R] (threshold : R) (rng : Draws) : Bool × Draws :=
  let (value, rng) := ops.random (ops.ofInt 0) (ops.ofInt 1) rng
  (decide (threshold < value), rng)

end MutatorArith

/-- `Optimizer::RandomInt`. (optimizer.cpp:147-152) -/
def randomInt (lo hi : Int) (rng : Draws) : Int × Draws :=
  let (r, rng) := draw rng
  (lo + (r : Int) % (hi - lo), rng)

/-! ## Rolling on while the result gets better -/

/-- `RollingStone`; `m_dMultiplicationFactor` is always 2. -/
structure RollingStone (R : Type) where
  prevEfficacy : R
  currentValue : R
  prevDelta : R
  max : R

namespace RollingStone

variable {F R : Type} (ops : MutatorArith F R)

/-- A stone that has not been set up. -/
def blank : RollingStone R :=
  { prevEfficacy := ops.ofInt 0, currentValue := ops.ofInt 0, prevDelta := ops.ofInt 0
    max := ops.ofInt 0 }

/-- `RollingStone::ShouldContinue`. (optimizer.cpp:743-757) -/
def shouldContinue [LinearOrder R] (self : RollingStone R) (newEfficacy : R) : Bool :=
  if newEfficacy ≤ self.prevEfficacy then false
  else if self.currentValue = self.max then false
  else true

/-- `RollingStone::NextValue`. (optimizer.cpp:759-771) -/
def nextValue [LinearOrder R] (self : RollingStone R) : RollingStone R :=
  let prevDelta := ops.mul self.prevDelta (ops.ofInt 2)
  let value := ops.add self.currentValue prevDelta
  { self with
    prevDelta := prevDelta
    currentValue := if prevDelta < ops.ofInt 0 then Max.max value self.max else min value self.max }

end RollingStone

/-! ## Finding the edge of a cliff -/

/-- `ValueEfficacyPair`. -/
structure ValueEfficacyPair (R : Type) where
  value : R
  efficacy : R

/-- `CliffState`. -/
inductive CliffState where
  | notCliffing
  | inProgress
  | finished
deriving DecidableEq

/-- `CliffFinder`. -/
structure CliffFinder (R : Type) where
  state : CliffState
  edgeEfficacy : R
  edge : R
  groundEfficacy : R
  ground : R
  epsilon : R

namespace CliffFinder

variable {F R : Type} (ops : MutatorArith F R)

/-- `CliffFinder::Reset`. (optimizer.cpp:1299-1307) -/
def reset : CliffFinder R :=
  { state := .notCliffing, edgeEfficacy := ops.ofInt 0, edge := ops.ofInt 0
    groundEfficacy := ops.ofInt 0, ground := ops.ofInt 0, epsilon := ops.frac 1 100000 }

/-- `CliffFinder::Init` with an edge and the ground next to it. (optimizer.cpp:1183-1195) -/
def initAt (edge ground : ValueEfficacyPair R) (epsilon : R) : CliffFinder R :=
  { state := .inProgress, edge := edge.value, edgeEfficacy := edge.efficacy
    ground := ground.value, groundEfficacy := ground.efficacy, epsilon := epsilon }

/-- An entry of the mapping. -/
def entry (vec : List (ValueEfficacyPair R)) (i : ℕ) : ValueEfficacyPair R :=
  vec.getD i ⟨ops.ofInt 0, ops.ofInt 0⟩

/-- What a scan for the edge keeps: the index of the edge, the running maximum and the drop
behind the edge. -/
structure Scan (R : Type) where
  index : ℕ
  maxValue : R
  drop : R

/-- One step of a scan: `i` is the entry looked at, `before` the one looked at before it.
(optimizer.cpp:1209-1222 and 1230-1243) -/
def scanStep [LinearOrder R] (vec : List (ValueEfficacyPair R)) (s : Scan R) (i before : ℕ) :
    Scan R :=
  let efficacy := (entry ops vec i).efficacy
  if s.maxValue ≤ efficacy then { s with maxValue := efficacy }
  else if (entry ops vec before).efficacy = s.maxValue then
    let drop := ops.sub s.maxValue efficacy
    if s.drop < drop then { s with index := before, drop := drop } else s
  else s

/-- The scan that starts at an index. -/
def scanStart (vec : List (ValueEfficacyPair R)) (index : ℕ) : Scan R :=
  ⟨index, (entry ops vec index).efficacy, ops.ofInt 0⟩

/-- The scan upwards. (optimizer.cpp:1205-1222) -/
def rising [LinearOrder R] (vec : List (ValueEfficacyPair R)) : Scan R :=
  (List.range' 1 (vec.length - 1)).foldl (fun s i => scanStep ops vec s i (i - 1))
    (scanStart ops vec 0)

/-- The scan downwards. (optimizer.cpp:1224-1243) -/
def falling [LinearOrder R] (vec : List (ValueEfficacyPair R)) : Scan R :=
  (List.range (vec.length - 1)).reverse.foldl (fun s i => scanStep ops vec s i (i + 1))
    (scanStart ops vec (vec.length - 1))

/-- `CliffFinder::Init` with a mapping. (optimizer.cpp:1197-1264) -/
def init [LinearOrder R] (self : CliffFinder R) (vec : List (ValueEfficacyPair R)) (epsilon : R) :
    CliffFinder R :=
  if vec.length < 2 then self
  else
    let rising := rising ops vec
    let falling := falling ops vec
    if falling.drop < rising.drop then
      initAt (entry ops vec rising.index) (entry ops vec (rising.index + 1)) epsilon
    else if rising.drop < falling.drop then
      initAt (entry ops vec falling.index) (entry ops vec (falling.index - 1)) epsilon
    else self

/-- `CliffFinder::GetValue`. (optimizer.cpp:1287-1297) -/
def getValue (self : CliffFinder R) : R :=
  if self.state = .finished then self.edge
  else ops.div (ops.add self.edge self.ground) (ops.ofInt 2)

/-- `CliffFinder::Report`. (optimizer.cpp:1266-1285) -/
def report [LinearOrder R] (self : CliffFinder R) (result : R) : CliffFinder R :=
  let value := self.getValue ops
  let self :=
    if self.edgeEfficacy ≤ result then { self with edge := value, edgeEfficacy := result }
    else { self with ground := value, groundEfficacy := result }
  if ops.abs (ops.sub self.edge self.ground) < self.epsilon then { self with state := .finished }
  else self

end CliffFinder

/-! ## Mapping a range, then searching for its cliff -/

/-- `BinarySearchState`. -/
inductive BinarySearchState where
  | noSearch
  | mappingSpace
  | binarySearch
  | finished
deriving DecidableEq

/-- `BinSearcher`. -/
structure BinSearcher (R : Type) where
  cliffer : CliffFinder R
  rangeMax : R
  originalValue : R
  eps : R
  mapping : List (ValueEfficacyPair R)
  mappingIteration : ℕ
  state : BinarySearchState

namespace BinSearcher

variable {F R : Type} (ops : MutatorArith F R)

/-- `m_uMappingIterations`. -/
def mappingIterations : ℕ := 5

/-- A searcher that has just been constructed. -/
def blank : BinSearcher R :=
  { cliffer := .reset ops, rangeMax := ops.ofInt 0, originalValue := ops.ofInt 0
    eps := ops.frac 1 100000, mapping := [], mappingIteration := 0, state := .noSearch }

/-- `BinSearcher::Reset`; the mapping stays. (optimizer.cpp:724-733) -/
def reset (self : BinSearcher R) : BinSearcher R := { blank ops with mapping := self.mapping }

/-- `BinSearcher::Init`. (optimizer.cpp:645-655) -/
def init (self : BinSearcher R) (orig origEfficacy max eps : R) : BinSearcher R :=
  { self with
    state := .mappingSpace
    cliffer := .reset ops
    originalValue := orig
    rangeMax := max
    eps := eps
    mapping := [⟨orig, origEfficacy⟩] }

/-- `GetMappingValue`. (optimizer.cpp:657-664) -/
def getMappingValue (iteration totalIterations : ℕ) (rangeMax orig : R) : R :=
  let range := ops.sub rangeMax orig
  ops.add orig (ops.div range (ops.ofInt (2 ^ (totalIterations - iteration))))

/-- `BinSearcher::GetValue`; `none` where it calls `abort`. (optimizer.cpp:666-692) -/
def getValue (self : BinSearcher R) : Option R :=
  match self.state with
  | .noSearch => none
  | .finished =>
    if self.cliffer.state = .finished then some (self.cliffer.getValue ops)
    else some self.originalValue
  | .mappingSpace =>
    some (getMappingValue ops self.mappingIteration mappingIterations self.rangeMax
      self.originalValue)
  | .binarySearch => some (self.cliffer.getValue ops)

/-- `BinSearcher::Report`; `none` where it calls `abort`. (optimizer.cpp:694-722) -/
def report [LinearOrder R] (self : BinSearcher R) (result : R) : Option (BinSearcher R) :=
  match self.state with
  | .noSearch => none
  | .mappingSpace =>
    (self.getValue ops).map fun value =>
      let mapping := self.mapping ++ [⟨value, result⟩]
      if mappingIterations = self.mappingIteration then
        { self with
          mapping := mapping
          cliffer := self.cliffer.init ops mapping self.eps
          state := .binarySearch }
      else { self with mapping := mapping, mappingIteration := self.mappingIteration + 1 }
  | _ =>
    let cliffer := self.cliffer.report ops result
    some { self with
      cliffer := cliffer
      state := if cliffer.state = .finished then .finished else self.state }

end BinSearcher

end TASQuake
