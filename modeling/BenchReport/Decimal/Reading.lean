/-!
# Reading decimals

A decimal is an optional sign, digits with at most one point among them and at least
one digit in all, and optionally an exponent. The words `inf`, `infinity` and `nan`
are read in any case. `BenchReport.Decimal.read?` gives the double nearest to the
number written.

A number written with an enormous exponent is decided by its size alone: a value of
more than `10 ^ 400` is beyond every double, one of less than `10 ^ -400` is nearer
to zero than to any other double.
-/

namespace BenchReport.Decimal

/-- A decimal as written: the whole number its digits spell, and the power of ten
that scales it. -/
structure Written where
  /-- The digits without the point. -/
  digits : List Char
  /-- The power of ten. -/
  exponent : Int
  deriving DecidableEq, Repr

/-- The number that digits spell. -/
def digitsValue (digits : List Char) : Nat :=
  digits.foldl (fun n c => n * 10 + (c.toNat - '0'.toNat)) 0

/-- The digits and points of a number without an exponent: at most one point, and at
least one digit. -/
def readPlain? (s : List Char) : Option Written :=
  let whole := s.takeWhile Char.isDigit
  match s.dropWhile Char.isDigit with
  | [] => if whole.isEmpty then none else some ⟨whole, 0⟩
  | '.' :: fraction =>
    if fraction.all Char.isDigit && !(whole.isEmpty && fraction.isEmpty) then
      some ⟨whole ++ fraction, -(fraction.length : Int)⟩
    else none
  | _ :: _ => none

/-- The whole number of an exponent: an optional sign and at least one digit. -/
def readExponent? (s : List Char) : Option Int :=
  match s with
  | '-' :: digits => (magnitude? digits).map fun n => -(n : Int)
  | '+' :: digits => (magnitude? digits).map Int.ofNat
  | digits => (magnitude? digits).map Int.ofNat
where
  magnitude? (digits : List Char) : Option Nat :=
    if !digits.isEmpty && digits.all Char.isDigit then some (digitsValue digits) else none

/-- A number with an optional exponent. -/
def readWritten? (s : List Char) : Option Written :=
  let isMark (c : Char) : Bool := c = 'e' || c = 'E'
  match s.dropWhile (fun c => !isMark c) with
  | [] => readPlain? s
  | _ :: mark => do
    let plain ← readPlain? (s.takeWhile fun c => !isMark c)
    let power ← readExponent? mark
    return { plain with exponent := plain.exponent + power }

/-- The double nearest to a decimal. -/
def Written.toFloat (w : Written) : Float :=
  let n := digitsValue w.digits
  let leading : Int := w.exponent + ((w.digits.dropWhile (· = '0')).length : Nat)
  -- `leading` is the power of ten just above the value
  if n = 0 then 0.0
  else if 400 < leading then 1.0 / 0.0
  else if leading < -400 then 0.0
  else if 0 ≤ w.exponent then Float.ofScientific n false w.exponent.toNat
  else Float.ofScientific n true (-w.exponent).toNat

/-- A magnitude without a sign, the named ones included. -/
def readMagnitude? (s : List Char) : Option Float :=
  let word := s.map Char.toLower
  if word = "inf".toList || word = "infinity".toList then some (1.0 / 0.0)
  else if word = "nan".toList then some (Float.ofBits 0x7ff8000000000000)
  else (readWritten? s).map Written.toFloat

/-- The double that a text stands for. -/
def read? (s : List Char) : Option Float :=
  match s with
  | '-' :: rest => (readMagnitude? rest).map fun x => -x
  | '+' :: rest => readMagnitude? rest
  | rest => readMagnitude? rest

end BenchReport.Decimal
