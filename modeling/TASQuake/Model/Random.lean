import TASQuake.Model.Script

/-!
# Random outcomes

The random engines of the code are not modelled; what they will answer is an argument.  An
outcome is a natural number and a distribution maps it into its range, so that every answer
a distribution can give is the answer to some outcome.  A list that has run out answers 0.

`GenerateRandomIntegers` (utils.cpp:357-430) is here because both the editor and the
optimizer use it.
-/

namespace TASQuake

/-- The outcomes still to come. -/
abbrev Draws := List ℕ

/-- The next outcome. -/
def draw : Draws → ℕ × Draws
  | [] => (0, [])
  | r :: rest => (r, rest)

/-- `std::uniform_int_distribution<int>(lo, hi)`. -/
def uniformInt (lo hi : Int) (draws : Draws) : Int × Draws :=
  let (r, rest) := draw draws
  (lo + (r : Int) % (hi - lo + 1), rest)

/-- The three static arrays of `GenerateRandomIntegers`. -/
structure RandomSlots where
  result : List Int
  mins : List Int
  maxs : List Int
deriving DecidableEq

namespace RandomSlots

/-- The probe for a slot that is still free. (utils.cpp:397-400) -/
def findFree (result : List Int) (sentinel : Int) (number : ℕ) : ℕ → ℕ → ℕ
  | 0, next => next
  | fuel + 1, next =>
    if result.getD next sentinel = sentinel then next
    else findFree result sentinel number fuel ((next + 1) % number)

/-- The loop that lowers the upper bounds below a slot just drawn. (utils.cpp:418-421) -/
def lowerMaxs (minGap : Int) : ℕ → List Int → List Int
  | 0, maxs => maxs
  | u + 1, maxs =>
    if maxs.getD u 0 > maxs.getD (u + 1) 0 - minGap then
      lowerMaxs minGap u (maxs.set u (maxs.getD (u + 1) 0 - minGap))
    else maxs

/-- The loop that raises the lower bounds above a slot just drawn; `steps` slots are left.
(utils.cpp:423-426) -/
def raiseMins (minGap : Int) : ℕ → ℕ → List Int → List Int
  | 0, _, mins => mins
  | steps + 1, u, mins =>
    if mins.getD u 0 < mins.getD (u - 1) 0 + minGap then
      raiseMins minGap steps (u + 1) (mins.set u (mins.getD (u - 1) 0 + minGap))
    else mins

/-- One round of the main loop: choose a free slot, draw its value, tighten the others.
(utils.cpp:394-427) -/
def fillOne (number : ℕ) (sentinel minGap : Int) (s : RandomSlots) (draws : Draws) :
    RandomSlots × Draws :=
  let (index, draws) := uniformInt 0 number draws
  let next := findFree s.result sentinel number number (index.toNat % number)
  let lo := s.mins.getD next 0
  let hi := s.maxs.getD next 0
  let (value, draws) := if lo = hi then (lo, draws) else uniformInt lo hi draws
  ({ result := s.result.set next value
     mins := raiseMins minGap (number - next - 1) (next + 1) (s.mins.set next value)
     maxs := lowerMaxs minGap next (s.maxs.set next value) }, draws)

/-- The main loop. -/
def fill (number : ℕ) (sentinel minGap : Int) : ℕ → RandomSlots → Draws → RandomSlots × Draws
  | 0, s, draws => (s, draws)
  | rounds + 1, s, draws =>
    let (s, draws) := fillOne number sentinel minGap s draws
    fill number sentinel minGap rounds s draws

end RandomSlots

/-- `MAX_N` of `GenerateRandomIntegers`. -/
def maxRandomIntegers : Int := 99

/-- `GenerateRandomIntegers`: the integers and the outcomes left, or the message logged.
(utils.cpp:357-430) -/
def generateRandomIntegers (number min max minGap : Int) (draws : Draws) :
    Except String (List Int × Draws) :=
  if number ≤ 0 then .error "GenerateRandomIntegers received number <= 0.\n"
  else if (max - min) - (number - 1) * minGap < 0 then
    .error "GenerateRandomIntegers received a too small interval.\n"
  else if maxRandomIntegers < number then
    .error "GenerateRandomIntegers received number >= MAX_N\n"
  else
    let n := number.toNat
    let sentinel := min - 1
    let start : RandomSlots :=
      { result := List.replicate n sentinel
        mins := (List.range n).map fun (i : ℕ) => (i : Int) * minGap + min
        maxs := (List.range n).map fun (i : ℕ) => max - (number - (i : Int) - 1) * minGap }
    let (slots, draws) := RandomSlots.fill n sentinel minGap n start draws
    .ok (slots.result, draws)

end TASQuake
