import BenchReport.Fault
import BenchReport.Text.Line

/-!
# Reading CSV

Records are read character by character. A record ends at a newline or a carriage
return, and empty lines are skipped, so both kinds of line end and their pair come to
the same. A field that begins with a quote ends at the next quote that stands alone; a
quote anywhere else is a character like others, and what follows a closing quote
belongs to the field.

Bytes that are no text do not stop the reading. They become part of a field, and the
record with that field cannot be used – but the records before it can. The same holds
of a stream that fails: the records that were complete are there, then the failure.
-/

namespace BenchReport.Csv

/-- A character of a field, or `none` for an ill-formed part. -/
abbrev Symbol := Option Char

/-- Where in a record the reader stands. -/
inductive Place where
  /-- Before the first field. -/
  | recordStart
  /-- Before a later field. -/
  | fieldStart
  /-- In a field without quotes. -/
  | bare
  /-- In a field in quotes. -/
  | inQuotes
  /-- After a quote that may end the field. -/
  | afterQuote
  deriving DecidableEq, Repr

/-- The reader between two characters. -/
structure Cursor where
  /-- Where it stands. -/
  place : Place
  /-- The open field, last character first. -/
  field : List Symbol
  /-- The finished fields of the record, last first. -/
  fields : List (List Symbol)
  /-- The finished records, last first. -/
  records : List (List (List Symbol))

namespace Cursor

/-- Before the first character. -/
def start : Cursor := ⟨.recordStart, [], [], []⟩

/-- Adds a character to the open field. -/
def push (c : Cursor) (place : Place) (u : Symbol) : Cursor :=
  { c with place, field := u :: c.field }

/-- Ends the open field; another follows. -/
def endField (c : Cursor) : Cursor :=
  { c with place := .fieldStart, field := [], fields := c.field.reverse :: c.fields }

/-- Ends the open field and the record. -/
def endRecord (c : Cursor) : Cursor :=
  ⟨.recordStart, [], [], (c.field.reverse :: c.fields).reverse :: c.records⟩

/-- A character that ends a record. -/
def isLineEnd (u : Symbol) : Bool := u = some '\n' || u = some '\r'

/-- Takes in a character that no quote protects. -/
def feedBare (delimiter : Char) (c : Cursor) (u : Symbol) : Cursor :=
  if u = some delimiter then c.endField
  else if isLineEnd u then c.endRecord
  else c.push .bare u

/-- Takes in a character. -/
def feed (delimiter : Char) (c : Cursor) (u : Symbol) : Cursor :=
  match c.place with
  | .recordStart =>
    if isLineEnd u then c
    else if u = some '"' then { c with place := .inQuotes }
    else c.feedBare delimiter u
  | .fieldStart =>
    if u = some '"' then { c with place := .inQuotes } else c.feedBare delimiter u
  | .bare => c.feedBare delimiter u
  | .inQuotes =>
    if u = some '"' then { c with place := .afterQuote } else c.push .inQuotes u
  | .afterQuote =>
    -- a quote after a quote stands for itself
    if u = some '"' then c.push .inQuotes u else c.feedBare delimiter u

/-- Ends the text: a record that has begun is complete. -/
def finish (c : Cursor) : Cursor :=
  match c.place with
  | .recordStart => c
  | _ => c.endRecord

end Cursor

/-- A text without a byte order mark at its beginning. -/
def dropByteOrderMark : List Symbol → List Symbol
  | some c :: rest => if c.toNat = 0xfeff then rest else some c :: rest
  | units => units

/-- The reader at the end of a stream. -/
def scan (delimiter : Char) (stream : Text.Stream) : Cursor :=
  let c := (dropByteOrderMark (Text.units stream.bytes)).foldl (Cursor.feed delimiter) .start
  match stream.failure with
  | none => c.finish
  | some _ => c

/-- What is read where a record is due. -/
inductive Entry where
  /-- A record, field by field. -/
  | record (fields : List (List Char))
  /-- A record that holds bytes that are no text, or a failure of the stream. -/
  | unreadable
  deriving DecidableEq, Repr

/-- A field as a text, if it is one. -/
def fieldChars? (field : List Symbol) : Option (List Char) :=
  if field.all Option.isSome then some (field.filterMap id) else none

/-- The entry of a record that has been read. -/
def Entry.ofFields (fields : List (List Symbol)) : Entry :=
  match fields.mapM fieldChars? with
  | some fields => .record fields
  | none => .unreadable

/-- The entries of a stream, in order; a failure of the stream is the last one. -/
def entries (stream : Text.Stream) : List Entry :=
  let records := (scan ',' stream).records.reverse.map Entry.ofFields
  match stream.failure with
  | none => records
  | some _ => records ++ [.unreadable]

end BenchReport.Csv
