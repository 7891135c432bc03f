import BenchReport.Text.Integer

/-!
# What can be wrong with a line

A line that has the form of a result may still be damaged. The damage is named by
its cause and not by its wording: `BenchReport.LineFault` says what is wrong, and
`BenchReport.LineFault.message` is the one place where that becomes a text.

Every line fault is **recoverable**. It concerns the line it was found on and no
other, so a reader counts it and goes on.
-/

namespace BenchReport

/-- Why a token is no number of the wanted kind. -/
inductive NumberFault where
  /-- The token does not begin with a digit or a point. -/
  | missing
  /-- What follows the number is no unit of time. -/
  | unknownUnit (suffix : String)
  /-- The digits and points before the unit are no decimal. -/
  | notDecimal
  /-- The token is no integer of the wanted type. -/
  | integer (fault : Text.IntegerFault)
  deriving DecidableEq, Repr

/-- The wording of a number's fault. -/
def NumberFault.message : NumberFault → String
  | .missing => "missing numeric value"
  | .unknownUnit suffix => "unknown unit suffix '" ++ suffix ++ "'"
  | .notDecimal => "invalid float literal"
  | .integer fault => fault.message

/-- Why a segment of a parameter list is no parameter. -/
inductive ParameterFault where
  /-- Nothing separates a key from a value. -/
  | missingDelimiter
  /-- There is nothing before the separator. -/
  | emptyKey
  /-- What follows the separator is no integer of 64 bits. -/
  | notInteger (value : String)
  deriving DecidableEq, Repr

/-- The wording of a parameter's fault. -/
def ParameterFault.message : ParameterFault → String
  | .missingDelimiter => "missing ':_' delimiter"
  | .emptyKey => "empty key"
  | .notInteger value => "value '" ++ value ++ "' is not an integer"

/-- Why a line of the right form yields no measurement. -/
inductive LineFault where
  /-- A token that has to be a number is none. -/
  | malformedNumber (token : String) (cause : NumberFault)
  /-- A segment of the parameter list is no parameter. -/
  | malformedParameter (segment : String) (cause : ParameterFault)
  /-- A parameter repeats an earlier key. -/
  | duplicateParameter (key : String)
  /-- The number of metric fields belongs to no known layout. -/
  | unknownShape (count : Nat)
  deriving DecidableEq, Repr

/-- The wording of a line's fault. -/
def LineFault.message : LineFault → String
  | .malformedNumber token cause => "Malformed number '" ++ token ++ "': " ++ cause.message
  | .malformedParameter segment cause =>
    "Malformed parameter '" ++ segment ++ "': " ++ cause.message
  | .duplicateParameter key => "Duplicate parameter '" ++ key ++ "'"
  | .unknownShape count =>
    "Unknown metric shape: " ++ Nat.repr count ++ " metric field(s), expected 1 or 4"

/-! ### Streams -/

/-- A stream that failed before its end. Nothing that was read from it counts. -/
structure StreamFault where
  /-- What the stream says about it. -/
  text : String
  deriving DecidableEq, Repr

/-- The wording of a stream's failure. -/
def StreamFault.message (fault : StreamFault) : String := "I/O error: " ++ fault.text

end BenchReport
