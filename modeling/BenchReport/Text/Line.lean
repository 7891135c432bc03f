import BenchReport.Fault
import BenchReport.Text.Split
import BenchReport.Text.Utf8

/-!
# The lines of a stream

A stream is bytes, and a line is what stands between two newline bytes. The cut is
made *before* the bytes are read as text: the newline byte is part of no longer
character, so a damaged character can never swallow the end of its line.

A newline belongs to the line it ends and is dropped together with one carriage
return before it. What follows the last newline is a line of its own unless it is
empty, and it keeps a carriage return at its end, since no newline took it along.
Lines are numbered from one.
-/

namespace BenchReport.Text

/-- The newline byte. -/
def newline : UInt8 := 10

/-- The bytes of a line without the carriage return that its newline takes along. -/
def dropReturn (bytes : List UInt8) : List UInt8 :=
  match bytes.reverse with
  | 13 :: rest => rest.reverse
  | _ => bytes

/-- The bytes of each line that ends in a newline, and the bytes after the last
newline. -/
def splitLines (bytes : List UInt8) : List (List UInt8) × List UInt8 :=
  let pieces := splitOn newline bytes
  (pieces.dropLast.map dropReturn, pieces.getLast?.getD [])

/-- The bytes of each line. -/
def lineBytes (bytes : List UInt8) : List (List UInt8) :=
  let (ended, tail) := splitLines bytes
  if tail.isEmpty then ended else ended ++ [tail]

/-- A line of a stream. -/
structure Line where
  /-- Its place in the stream, from one. -/
  number : Nat
  /-- Its text, ill-formed parts replaced. -/
  text : List Char
  deriving DecidableEq

/-- How many bytes the text of a line takes. -/
def Line.length (line : Line) : Nat := byteCount line.text

/-- Texts numbered from one. -/
def numbered (texts : List (List UInt8)) : List Line :=
  (texts.zipIdx 1).map fun entry => ⟨entry.2, decodeLossy entry.1⟩

/-- The lines of a stream, in order and numbered from one. -/
def lines (bytes : List UInt8) : List Line := numbered (lineBytes bytes)

/-! ### Streams that fail -/

/-- What a stream delivers: all of its bytes, or some bytes and then a failure. -/
structure Stream where
  /-- The bytes delivered. -/
  bytes : List UInt8
  /-- The failure after them, if the stream does not end. -/
  failure : Option StreamFault

/-- A stream that delivers its bytes and ends. -/
def Stream.ofBytes (bytes : List UInt8) : Stream := ⟨bytes, none⟩

/-- The lines that a stream delivers. A failure loses the line it falls in. -/
def Stream.lines (stream : Stream) : List Line :=
  match stream.failure with
  | none => BenchReport.Text.lines stream.bytes
  | some _ => numbered (splitLines stream.bytes).1

end BenchReport.Text
