import BenchReport.Decimal.Shortest

/-!
# Laying out a number

Choosing the digits of a number and laying them out are two things. This file does
the second. There are three layouts, and each is a rule of one output format:

* **plain** – the fewest digits, always positional: no exponent however large or
  small the number, and no point in a whole number;
* **exponential** – the fewest digits, positional with at least one decimal as long
  as the number is of ordinary size, with an exponent otherwise;
* **fixed** – a given number of decimals, rounded from the exact value with a half
  going to the even neighbour.
-/

namespace BenchReport.Decimal

/-- The decimal digits of a number, as characters. -/
def digitChars (n : Nat) : List Char := Nat.toDigits 10 n

/-- A minus before a negative number. -/
def signChars (negative : Bool) : List Char := if negative then ['-'] else []

/-- The digits with the point `places` digits from the right, and at least one digit
before it. -/
def withPoint (digits : List Char) (places : Nat) : List Char :=
  let padded := List.replicate (places + 1 - digits.length) '0' ++ digits
  let whole := padded.take (padded.length - places)
  if places = 0 then whole else whole ++ '.' :: padded.drop (padded.length - places)

/-- A decimal without an exponent: zeros fill the places that have no digit. -/
def Digits.positional (d : Digits) : List Char :=
  if 0 ≤ d.exponent then digitChars d.digits ++ List.replicate d.exponent.toNat '0'
  else withPoint (digitChars d.digits) (-d.exponent).toNat

/-! ### Plain -/

/-- The plain text of a double. -/
def plainChars (x : Float) : List Char :=
  match Binary.ofFloat x with
  | .nan => "NaN".toList
  | .infinite negative => signChars negative ++ "inf".toList
  | .finite negative m => signChars negative ++ (shortest .up m).positional

/-- The plain text of a double. -/
def plain (x : Float) : String := String.ofList (plainChars x)

/-! ### Exponential -/

/-- The number without the zeros at its end, and how many there were; at most `fuel`
of them are taken. -/
def stripZeros : Nat → Nat → Nat × Nat
  | 0, n => (n, 0)
  | fuel + 1, n =>
    if n % 10 = 0 && n ≠ 0 then
      let (core, count) := stripZeros fuel (n / 10)
      (core, count + 1)
    else (n, 0)

/-- One digit, a point if more follow, the others, and the exponent with its sign. -/
def Digits.scientific (d : Digits) : List Char :=
  let (core, zeros) := stripZeros 400 d.digits
  let chars := digitChars core
  let power : Int := d.exponent + zeros + (chars.length - 1 : Nat)
  let mantissa := match chars with
    | first :: second :: rest => first :: '.' :: second :: rest
    | few => few
  mantissa ++ 'e' :: (if power < 0 then '-' else '+') :: digitChars power.natAbs

/-- The exponential text of a finite magnitude: positional from `10 ^ -5` up to and
without `10 ^ 16`, with at least one decimal. -/
def exponentialChars (m : Magnitude) : List Char :=
  let d := shortest .even m
  let leading : Int := d.exponent + (digitChars d.digits).length
  if d.digits = 0 then "0.0".toList
  else if leading ≤ 16 && -5 < leading then
    if 0 ≤ d.exponent then d.positional ++ ".0".toList else d.positional
  else d.scientific

/-! ### Fixed -/

/-- The quotient rounded to the nearest whole number, a half to the even one. -/
def roundHalfEven (numerator denominator : Nat) : Nat :=
  let q := numerator / denominator
  let r := numerator % denominator
  if 2 * r < denominator || (2 * r = denominator && q % 2 = 0) then q else q + 1

/-- The text of a double with a given number of decimals. -/
def fixedChars (places : Nat) (x : Float) : List Char :=
  match Binary.ofFloat x with
  | .nan => "NaN".toList
  | .infinite negative => signChars negative ++ "inf".toList
  | .finite negative m =>
    let (numerator, denominator) := m.quotient
    signChars negative ++
      withPoint (digitChars (roundHalfEven (numerator * Nat.pow 10 places) denominator)) places

/-- The text of a double with a given number of decimals. -/
def fixed (places : Nat) (x : Float) : String := String.ofList (fixedChars places x)

end BenchReport.Decimal
