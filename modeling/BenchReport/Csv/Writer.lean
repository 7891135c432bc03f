import BenchReport.Decimal.Reading
import BenchReport.Text.Utf8

/-!
# Writing CSV

A **record** is a list of fields on a line, separated by a delimiter. A field that
could be misread stands in quotes, and a quote inside it is written twice. When a field
is quoted is a matter of style (`BenchReport.Csv.QuoteStyle`), as is the delimiter.

The delimiter is a byte. One beyond ASCII is no character by itself, so nothing that
is written with it is a text.
-/

namespace BenchReport.Csv

/-- When a field stands in quotes. -/
inductive QuoteStyle where
  /-- When it could be misread otherwise. -/
  | necessary
  /-- Always. -/
  | always
  /-- Unless it reads as a number. -/
  | nonNumeric
  /-- Never, whatever it holds. -/
  | never
  deriving DecidableEq, Repr

/-- How records are written. -/
structure Dialect where
  /-- The byte between two fields. -/
  delimiter : UInt8
  /-- When a field stands in quotes. -/
  quotes : QuoteStyle
  deriving DecidableEq, Repr

/-- A comma between fields, and quotes where they are necessary. -/
def Dialect.default : Dialect := ⟨44, .necessary⟩

/-- The delimiter as a character, if it is one. -/
def Dialect.delimiterChar? (d : Dialect) : Option Char :=
  if d.delimiter < 128 then some (Char.ofNat d.delimiter.toNat) else none

/-! ### Fields -/

/-- A character that a reader would take for the end of a field or for a quote. -/
def isSpecial (delimiter c : Char) : Bool :=
  c = delimiter || c = '"' || c = '\n' || c = '\r'

/-- Whether a field stands in quotes. -/
def quotesField (style : QuoteStyle) (delimiter : Char) (field : List Char) : Bool :=
  match style with
  | .necessary => field.any (isSpecial delimiter)
  | .always => true
  | .nonNumeric => (Decimal.read? field).isNone
  | .never => false

/-- A field in quotes, each quote inside it written twice. -/
def quoted (field : List Char) : List Char :=
  '"' :: field.flatMap (fun c => if c = '"' then ['"', '"'] else [c]) ++ ['"']

/-- A field as it is written. -/
def fieldText (style : QuoteStyle) (delimiter : Char) (field : List Char) : List Char :=
  if quotesField style delimiter field then quoted field else field

/-! ### Records -/

/-- Texts with a delimiter between each two. -/
def delimited (delimiter : Char) : List (List Char) → List Char
  | [] => []
  | [field] => field
  | field :: rest => field ++ delimiter :: delimited delimiter rest

/-- A record as it is written, with its newline. A record that would be an empty line
is written as one empty field in quotes, since a reader skips empty lines. -/
def recordText (style : QuoteStyle) (delimiter : Char) (fields : List (List Char)) : List Char :=
  let text := delimited delimiter (fields.map (fieldText style delimiter))
  (if text.isEmpty then ['"', '"'] else text) ++ ['\n']

/-- The text of a list of records. -/
def text (style : QuoteStyle) (delimiter : Char) (records : List (List (List Char))) :
    List Char :=
  records.flatMap (recordText style delimiter)

/-- How many bytes a record takes. A delimiter takes one, whichever it is, and one that
is no character is part of no field. -/
def recordSize (d : Dialect) (fields : List (List Char)) : Nat :=
  Text.byteCount (recordText d.quotes (d.delimiterChar?.getD ',') fields)

/-! ### Destinations that refuse -/

/-- How many bytes are gathered before a destination is asked to take them. -/
def bufferSize : Nat := 8192

/-- The place of the first record that does not fit into the buffer with those before
it; a destination that takes nothing refuses it there. -/
def firstOverflow? (sizes : List Nat) : Option Nat :=
  let totals := sizes.foldl (fun acc size => (acc.head?.getD 0 + size) :: acc) []
  totals.reverse.findIdx? (bufferSize < ·)

end BenchReport.Csv
