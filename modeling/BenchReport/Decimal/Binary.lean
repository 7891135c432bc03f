/-!
# A double, taken apart

A finite double is a sign and a magnitude `significand · 2 ^ exponent`, with whole
numbers for both. Everything that is printed about a double is decided from these
by exact integer arithmetic – nothing below this file rounds.

`BenchReport.Decimal.Binary.ofFloat` reads the parts off the bits. The exponent
field zero holds the numbers too small for a leading one bit; the greatest exponent
field holds the infinities and what is not a number.
-/

namespace BenchReport.Decimal

/-- A finite magnitude: `significand · 2 ^ exponent`. -/
structure Magnitude where
  /-- The whole number that is scaled. -/
  significand : Nat
  /-- The power of two that scales it. -/
  exponent : Int
  deriving DecidableEq, Repr

/-- The magnitude as a quotient of two whole numbers, numerator first. -/
def Magnitude.quotient (m : Magnitude) : Nat × Nat :=
  if 0 ≤ m.exponent then (m.significand * Nat.pow 2 m.exponent.toNat, 1)
  else (m.significand, Nat.pow 2 (-m.exponent).toNat)

/-- A double by kind. -/
inductive Binary where
  /-- Not a number. -/
  | nan
  /-- An infinity. -/
  | infinite (negative : Bool)
  /-- A finite number; zero has a sign too. -/
  | finite (negative : Bool) (magnitude : Magnitude)
  deriving DecidableEq, Repr

/-- The leading bit of the significand, which stands above the 52 bits of the fraction
field and is not written. -/
def leadingBit : Nat := 0x10000000000000

/-- The exponent of the least significand unit in the smallest doubles. -/
def leastExponent : Int := -1074

/-- The parts of a double with the given bits. -/
def Binary.ofBits (bits : UInt64) : Binary :=
  let word := bits.toNat
  let negative := word / 0x8000000000000000 = 1
  let field := word / leadingBit % 2048
  let fraction := word % leadingBit
  if field = 2047 then (if fraction = 0 then .infinite negative else .nan)
  else if field = 0 then .finite negative ⟨fraction, leastExponent⟩
  else .finite negative ⟨leadingBit + fraction, leastExponent + (field - 1 : Nat)⟩

/-- The parts of a double. -/
def Binary.ofFloat (x : Float) : Binary := .ofBits x.toBits

end BenchReport.Decimal
