import BenchReport.Decimal.Reading
import BenchReport.Fault
import BenchReport.Text.Blank

/-!
# Durations

Reports print a duration as a number with a short unit behind it, and this library
keeps every duration in **milliseconds**:

| suffix | unit | milliseconds |
|---|---|---|
| none, `s` | seconds | times 1000 |
| `m`, `ms` | milliseconds | as written |
| `µ`, `µs`, `us` | microseconds | divided by 1000 |
| `n`, `ns` | nanoseconds | divided by 1 000 000 |

The micro sign and the Greek letter mu look alike and are both accepted.

A **timing token** is cut where its run of digits and points ends. Its faults are
looked for in a fixed order – no number, unknown unit, bad decimal – so a token with
two of them reports the first.
-/

namespace BenchReport

/-- A unit of time. -/
inductive TimeUnit where
  /-- Seconds. -/
  | seconds
  /-- Milliseconds. -/
  | milliseconds
  /-- Microseconds. -/
  | microseconds
  /-- Nanoseconds. -/
  | nanoseconds
  deriving DecidableEq, Repr

namespace TimeUnit

/-- The micro sign. -/
def microSign : Char := Char.ofNat 0xb5

/-- The Greek letter mu. -/
def mu : Char := Char.ofNat 0x3bc

/-- Every suffix with the unit that it names. No suffix at all means seconds. -/
def suffixes : List (List Char × TimeUnit) :=
  [([], seconds), (['s'], seconds), (['m'], milliseconds), (['m', 's'], milliseconds),
   ([microSign], microseconds), ([microSign, 's'], microseconds), ([mu], microseconds),
   ([mu, 's'], microseconds), (['u', 's'], microseconds), (['n'], nanoseconds),
   (['n', 's'], nanoseconds)]

/-- The unit that a suffix names. -/
def ofSuffix? (suffix : List Char) : Option TimeUnit :=
  (suffixes.find? fun entry => entry.1 = suffix).map Prod.snd

/-- The short name of a unit; the micro sign is the one before the `s`. -/
def symbol : TimeUnit → String
  | seconds => "s"
  | milliseconds => "ms"
  | microseconds => "µs"
  | nanoseconds => "ns"

/-- How many milliseconds one unit is. -/
def millisFactor : TimeUnit → Float
  | seconds => 1000
  | milliseconds => 1
  | microseconds => 1e-3
  | nanoseconds => 1e-6

/-- A number of units in milliseconds. The small units divide, which rounds once,
where a product with the inexact factor would round twice. -/
def toMillis (unit : TimeUnit) (value : Float) : Float :=
  match unit with
  | seconds => value * 1000
  | milliseconds => value
  | microseconds => value / 1000
  | nanoseconds => value / 1000000

end TimeUnit

/-! ### Tokens -/

/-- A character of the number at the start of a timing token. -/
def isNumberChar (c : Char) : Bool := c.isDigit || c = '.'

/-- The duration that a timing token stands for, in milliseconds. -/
def readDuration (token : List Char) : Except LineFault Float :=
  let token := Text.trim token
  let number := token.takeWhile isNumberChar
  let suffix := token.dropWhile isNumberChar
  let fault (cause : NumberFault) := LineFault.malformedNumber (String.ofList token) cause
  if number.isEmpty then .error (fault .missing)
  else
    match TimeUnit.ofSuffix? suffix with
    | none => .error (fault (.unknownUnit (String.ofList suffix)))
    | some unit =>
      match Decimal.readPlain? number with
      | none => .error (fault .notDecimal)
      | some written => .ok (unit.toMillis written.toFloat)

/-- The number that a plain count token stands for. -/
def readCount (token : List Char) : Except LineFault UInt64 :=
  let token := Text.trim token
  match Text.readUnsigned token with
  | .ok n => .ok n
  | .error fault => .error (.malformedNumber (String.ofList token) (.integer fault))

end BenchReport
