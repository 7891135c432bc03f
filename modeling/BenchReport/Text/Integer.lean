/-!
# Reading integers

An integer is written as an optional sign and at least one ASCII digit. A word of
64 bits holds only so many of them, so reading can fail in four ways, and each is a
cause of its own (`BenchReport.Text.IntegerFault`).

Digits are read from the left, and **the first fault met wins**: a number that has
already outgrown its type is too large whatever follows it, and a stray character
met before that point makes the text invalid. A sign on its own is a stray
character, not an empty text.
-/

namespace BenchReport.Text

/-- Why a text is no integer of the wanted type. -/
inductive IntegerFault where
  /-- There is no character at all. -/
  | empty
  /-- A character that is no ASCII digit stands where a digit is due. -/
  | invalidDigit
  /-- The number is above the greatest of its type. -/
  | tooLarge
  /-- The number is below the least of its type. -/
  | tooSmall
  deriving DecidableEq, Repr

/-- The wording of a fault. -/
def IntegerFault.message : IntegerFault → String
  | .empty => "cannot parse integer from empty string"
  | .invalidDigit => "invalid digit found in string"
  | .tooLarge => "number too large to fit in target type"
  | .tooSmall => "number too small to fit in target type"

/-- The value of an ASCII digit. -/
def digitValue? (c : Char) : Option Nat :=
  if c.isDigit then some (c.toNat - '0'.toNat) else none

/-- Reads digits onto `value`, refusing to pass `limit`; `excess` is the fault that
passing it would be. -/
def readDigits (limit : Nat) (excess : IntegerFault) (value : Nat) :
    List Char → Except IntegerFault Nat
  | [] => .ok value
  | c :: s =>
    match digitValue? c with
    | none => .error .invalidDigit
    | some d =>
      if limit < value * 10 + d then .error excess
      else readDigits limit excess (value * 10 + d) s

/-- Reads a magnitude of at least one digit; the text `whole` is what the magnitude
is a part of, so that only an empty whole is called empty. -/
def readMagnitude (limit : Nat) (excess : IntegerFault) (whole digits : List Char) :
    Except IntegerFault Nat :=
  if whole.isEmpty then .error .empty
  else if digits.isEmpty then .error .invalidDigit
  else readDigits limit excess 0 digits

/-- Reads an unsigned number of 64 bits: an optional `+`, then digits. -/
def readUnsigned (s : List Char) : Except IntegerFault UInt64 :=
  (readMagnitude (UInt64.size - 1) .tooLarge s ((dropPlus s).getD s)).map UInt64.ofNat
where
  dropPlus : List Char → Option (List Char)
    | '+' :: rest => some rest
    | _ => none

/-- Reads a signed number of 64 bits: an optional sign, then digits. -/
def readSigned (s : List Char) : Except IntegerFault Int64 :=
  match s with
  | '-' :: digits =>
    (readMagnitude 0x8000000000000000 .tooSmall s digits).map fun n => Int64.ofInt (-(n : Int))
  | '+' :: digits => (readMagnitude 0x7fffffffffffffff .tooLarge s digits).map Int64.ofNat
  | digits => (readMagnitude 0x7fffffffffffffff .tooLarge s digits).map Int64.ofNat

/-- The decimal text of an unsigned number. -/
def showUnsigned (n : UInt64) : String := Nat.repr n.toNat

/-- The decimal text of a signed number, with a minus before a negative one. -/
def showSigned (n : Int64) : String :=
  if n < 0 then "-" ++ Nat.repr n.toInt.natAbs else Nat.repr n.toInt.natAbs

end BenchReport.Text
