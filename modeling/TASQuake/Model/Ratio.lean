import Mathlib.Algebra.Group.Int.Defs
import TASQuake.Lib.Run
import TASQuake.Model.Optimizer

/-!
# Ratios as ratios of integers

`BrapAlg` and the functions `ApproximateRatioWithIntegers` of libtasquake (utils.cpp:66-235), with
which strafing and swimming turn directions into move commands.

`RatioOps` holds what doubles can do.  Nothing is assumed of it, so that a NaN and two zeros are
possible; `eq` is `==`.  The three 64-bit integers of `BrapAlg` are checked: a result that is no
`int64_t` is `none`, and so is a division by zero.
-/

namespace TASQuake

open Lib

/-! ## Two numbers -/

/-- A value of type `int64_t`, or `none` if it overflows. -/
def int64 (n : Int) : Option Int := if -2 ^ 63 ≤ n ∧ n < 2 ^ 63 then some n else none

/-- A value of type `int`, or `none` if it overflows. -/
def int32 (n : Int) : Option Int := if -2 ^ 31 ≤ n ∧ n < 2 ^ 31 then some n else none

/-- The local variables of `BrapAlg`. -/
structure Brap where
  p0 : Int
  p1 : Int
  p2 : Int
  q0 : Int
  q1 : Int
  q2 : Int
  remainder : Int
  divisor : Int
  i : ℕ
deriving DecidableEq

namespace Brap

/-- `1e18`, which ratios are scaled by. -/
def scale : Int := 10 ^ 18

/-- The variables before the loop; `divisor` is the ratio, scaled and rounded.
(libtasquake/src/utils.cpp:70-78) -/
def start (divisor : Int) : Brap :=
  { p0 := 1, p1 := 0, p2 := 0, q0 := 0, q1 := 0, q2 := 0, remainder := scale, divisor := divisor
    i := 0 }

/-- The condition of the loop. (libtasquake/src/utils.cpp:80) -/
def goesOn (maxInt : Int) (self : Brap) : Bool := self.remainder != 0 && decide (self.q0 ≤ maxInt)

/-- The body of the loop. (libtasquake/src/utils.cpp:82-100) -/
def body (self : Brap) : Option Brap := do
  let (p2, p1, q2, q1) := (self.p1, self.p0, self.q1, self.q0)
  let (dividend, divisor) := (self.divisor, self.remainder)
  if divisor = 0 then none
  let a ← int64 (dividend.tdiv divisor)
  let remainder := dividend.tmod divisor
  let (p0, q0) ←
    if self.i = 0 then some (a, 1)
    else do
      let ap ← int64 (a * p1)
      let aq ← int64 (a * q1)
      some (← int64 (ap + p2), ← int64 (aq + q2))
  some { p0, p1, p2, q0, q1, q2, remainder, divisor, i := self.i + 1 }

/-- The numerator and the denominator used. (libtasquake/src/utils.cpp:103-114) -/
def used (maxInt : Int) (self : Brap) : Int × Int :=
  if self.remainder = 0 ∧ self.q0 ≤ maxInt then (self.p0, self.q0) else (self.p1, self.q1)

/-- The loop; it is given more rounds than there can be remainders. -/
def loop (maxInt : Int) (self : Brap) : Option Brap :=
  whileLoop (goesOn maxInt) body (self.remainder.natAbs + 1) self

end Brap

/-- `BrapAlg`, from `divisor` on.  The quotient of `max_int` is a double that is truncated; the
denominator is exact there. (libtasquake/src/utils.cpp:67-115) -/
def brapAlg (divisor maxInt : Int) : Option (Int × Int) := do
  let vars ← (Brap.start divisor).loop maxInt
  let (p, q) := vars.used maxInt
  if max q p = 0 then none
  let mult ← int32 (maxInt.tdiv (max q p))
  some (← int64 (p * mult), ← int64 (q * mult))

/-- What `ApproximateRatioWithIntegers` does with doubles. -/
structure RatioOps (R : Type) where
  ofInt : Int → R
  add : R → R → R
  sub : R → R → R
  mul : R → R → R
  div : R → R → R
  /-- `std::abs` -/
  abs : R → R
  sqrt : R → R
  /-- `a == b` -/
  eq : R → R → Bool
  /-- `a < b` -/
  lt : R → R → Bool
  /-- `a >= 0` -/
  nonneg : R → Bool
  /-- `std::numeric_limits<double>::epsilon()` -/
  epsilon : R
  /-- `Round`, which adds `1.5 * 2 ^ 52` and takes the lower half of the result -/
  round : R → R
  /-- `std::round(1e18 * (a / b))` -/
  scaledRatio : R → R → Int

variable {R : Type}

/-- `number >= 0 ? 1 : -1`. -/
def RatioOps.sign (ops : RatioOps R) (number : R) : Int := if ops.nonneg number then 1 else -1

/-! ## Three numbers -/

namespace RatioOps

variable (ops : RatioOps R)

/-- `distance`, of a point to the line through the origin and `old`.
(libtasquake/src/utils.cpp:138-143) -/
def distance (old v : Vec R) : R :=
  let one := ops.ofInt 1
  let two := ops.ofInt 2
  let square (o w : R) : R := ops.mul (ops.mul (ops.sub one (ops.mul o o)) w) w
  let cross (o o' w w' : R) : R := ops.mul (ops.mul (ops.mul (ops.mul two o) o') w) w'
  ops.sub (ops.sub (ops.sub
    (ops.add (ops.add (square old.x v.x) (square old.y v.y)) (square old.z v.z))
    (cross old.x old.y v.x v.y)) (cross old.x old.z v.x v.z)) (cross old.y old.z v.y v.z)

/-- The largest of the numbers, if one is larger than epsilon.
(libtasquake/src/utils.cpp:154-172) -/
def biggest (numbers : Vec R) : Option R :=
  [numbers.x, numbers.y, numbers.z].foldl
    (fun found number =>
      let absNumber := ops.abs number
      if ops.lt (found.getD ops.epsilon) absNumber then some absNumber else found)
    none

/-- `Round(ratios[...] * i)`. (libtasquake/src/utils.cpp:198-200) -/
def scaled (ratios : Vec R) (i : Int) : Vec R :=
  ⟨ops.round (ops.mul ratios.x (ops.ofInt i)), ops.round (ops.mul ratios.y (ops.ofInt i)),
    ops.round (ops.mul ratios.z (ops.ofInt i))⟩

/-- The loop that looks for the index with the smallest error.
(libtasquake/src/utils.cpp:192-209) -/
def bestIndex (old ratios : Vec R) (maxInt : Int) : Int :=
  let first := maxInt.tdiv 2
  ((List.range (maxInt + 1 - first).toNat).foldl
    (fun (best : Int × R) k =>
      let i := first + k
      let err := ops.abs (ops.distance old (ops.scaled ratios i))
      if ops.lt err best.2 then (i, err) else best)
    (maxInt, ops.ofInt 1)).1

/-- `ApproximateRatioWithIntegers` of an array. (libtasquake/src/utils.cpp:151-214) -/
def approximateNumbers (numbers : Vec R) (maxInt : Int) : Vec R :=
  let signs : Vec R := ⟨ops.ofInt (ops.sign numbers.x), ops.ofInt (ops.sign numbers.y),
    ops.ofInt (ops.sign numbers.z)⟩
  let numbers : Vec R := ⟨ops.abs numbers.x, ops.abs numbers.y, ops.abs numbers.z⟩
  match ops.biggest numbers with
  | none => numbers
  | some biggest =>
    let ratios : Vec R :=
      ⟨ops.div numbers.x biggest, ops.div numbers.y biggest, ops.div numbers.z biggest⟩
    let length := ops.sqrt
      (ops.add (ops.add (ops.add (ops.ofInt 0) (ops.mul numbers.x numbers.x))
        (ops.mul numbers.y numbers.y)) (ops.mul numbers.z numbers.z))
    let old : Vec R :=
      ⟨ops.div numbers.x length, ops.div numbers.y length, ops.div numbers.z length⟩
    let best := ops.scaled ratios (ops.bestIndex old ratios maxInt)
    ⟨ops.mul best.x signs.x, ops.mul best.y signs.y, ops.mul best.z signs.z⟩

/-- The three numbers are those of the call before. -/
def sameNumbers (a b : Vec R) : Bool := ops.eq a.x b.x && ops.eq a.y b.y && ops.eq a.z b.z

end RatioOps

/-- The variables of `ApproximateRatioWithIntegers` that outlive a call. -/
structure RatioCache (R : Type) where
  prevNumbers : Vec R
  cachedNumbers : Vec R

namespace RatioCache

/-- The cache of a thread that has not called the function. (libtasquake/src/utils.cpp:218-219) -/
def init (ops : RatioOps R) : RatioCache R :=
  let zero : Vec R := ⟨ops.ofInt 0, ops.ofInt 0, ops.ofInt 0⟩
  ⟨zero, zero⟩

/-- `ApproximateRatioWithIntegers` of three numbers, with the numbers that it returns.
(libtasquake/src/utils.cpp:216-235) -/
def approximate (ops : RatioOps R) (self : RatioCache R) (numbers : Vec R) (maxInt : Int) :
    RatioCache R × Vec R :=
  if ops.sameNumbers self.prevNumbers numbers then (self, self.cachedNumbers)
  else
    let result := ops.approximateNumbers numbers maxInt
    (⟨numbers, result⟩, result)

end RatioCache

end TASQuake
