import BenchReport.Decimal.Binary

/-!
# The fewest digits that read back

Many decimals round to the same double. The one that is printed is a **shortest**:
no decimal with fewer digits lies among those that round to it, and of the shortest
ones it is the one nearest to the double.

The reals that round to a magnitude `m` form an interval, from half-way to its lower
neighbour up to half-way to its upper neighbour, the ends included when the
significand is even. The search below goes through the decimal grids from the coarse
to the fine ones and looks, on each, at the two grid points around the magnitude: if
the interval holds any point of a grid, it holds one of these two. The first grid
with a hit gives the fewest digits. Two hits are decided by distance, and only an
exact tie is left to the format – that is the parameter `BenchReport.Decimal.Tie`.
-/

namespace BenchReport.Decimal

/-- A decimal `digits · 10 ^ exponent`. -/
structure Digits where
  /-- The whole number that the digits spell. -/
  digits : Nat
  /-- The power of ten that scales it. -/
  exponent : Int
  deriving DecidableEq, Repr

/-- Which of two equally near decimals is taken. -/
inductive Tie where
  /-- The greater one. -/
  | up
  /-- The one with an even last digit. -/
  | even
  deriving DecidableEq, Repr

/-! ### The interval of a magnitude -/

/-- The reals that round to a magnitude, over a common denominator. -/
structure Interval where
  /-- The magnitude itself. -/
  value : Nat
  /-- The lower end. -/
  low : Nat
  /-- The upper end. -/
  high : Nat
  /-- The common denominator. -/
  denominator : Nat
  /-- Whether the ends belong to the interval. -/
  closed : Bool

/-- The interval of a magnitude. Below a power of two the lower neighbour is only
half as far away, unless the magnitude is among the smallest. -/
def Interval.ofMagnitude (m : Magnitude) : Interval :=
  let narrow := m.significand = leadingBit && leastExponent < m.exponent
  let (numerator, denominator) := Magnitude.quotient ⟨1, m.exponent⟩
  { value := 4 * m.significand * numerator
    low := (4 * m.significand - if narrow then 1 else 2) * numerator
    high := (4 * m.significand + 2) * numerator
    denominator := 4 * denominator
    closed := m.significand % 2 = 0 }

/-- The interval seen on the grid of the multiples of `10 ^ exponent`: the same
interval, measured in steps of the grid. -/
def Interval.onGrid (i : Interval) (exponent : Int) : Interval :=
  if 0 ≤ exponent then { i with denominator := i.denominator * Nat.pow 10 exponent.toNat }
  else
    -- a step below one makes the value larger rather than the denominator
    let scale := Nat.pow 10 (-exponent).toNat
    { i with value := i.value * scale, low := i.low * scale, high := i.high * scale }

/-- Whether a whole number lies in the interval. -/
def Interval.holds (i : Interval) (n : Nat) : Bool :=
  let p := n * i.denominator
  if i.closed then i.low ≤ p && p ≤ i.high else i.low < p && p < i.high

/-- The whole number in the interval that is nearest to its value, if there is one. -/
def Interval.nearest? (tie : Tie) (i : Interval) : Option Nat :=
  let below := i.value / i.denominator
  let above := below + 1
  match i.holds below, i.holds above with
  | false, false => none
  | true, false => some below
  | false, true => some above
  | true, true =>
    -- both neighbours read back, so the nearer one is taken
    let twice := 2 * i.value
    let middle := (below + above) * i.denominator
    if twice < middle then some below
    else if middle < twice then some above
    else match tie with
      | .up => some above
      | .even => some (if below % 2 = 0 then below else above)

/-! ### The search -/

/-- Tries the grid of `10 ^ exponent` and then finer ones; at the finest the value
itself is cut off. -/
def searchGrids (tie : Tie) (i : Interval) : Nat → Int → Digits
  | 0, exponent =>
    let g := i.onGrid exponent
    ⟨g.value / g.denominator, exponent⟩
  | tries + 1, exponent =>
    match (i.onGrid exponent).nearest? tie with
    | some n => ⟨n, exponent⟩
    | none => searchGrids tie i tries (exponent - 1)

/-- An exponent of ten that is no smaller than the one of the leading digit: the
number of bits times the logarithm of two, rounded up. -/
def coarsestExponent (m : Magnitude) : Int :=
  let bits : Int := (Nat.log2 m.significand + 1 : Nat) + m.exponent
  bits * 30103 / 100000 + 1

/-- The decimal of fewest digits that rounds to the magnitude. Twenty grids reach
past the seventeenth digit, which always suffices. -/
def shortest (tie : Tie) (m : Magnitude) : Digits :=
  if m.significand = 0 then ⟨0, 0⟩
  else searchGrids tie (.ofMagnitude m) 20 (coarsestExponent m)

end BenchReport.Decimal
