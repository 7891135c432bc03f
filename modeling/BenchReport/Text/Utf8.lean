/-!
# Reading UTF-8

Bytes come from files, and files can be damaged. The reader below never stops at a
damaged place: it cuts the bytes into **units**, each either a character or an
*ill-formed part*, and goes on with the byte after it. What is done with a damaged
unit is the caller's choice: `BenchReport.Text.decodeLossy` puts the replacement
character in its place, `BenchReport.Text.decodeStrict?` refuses the whole text.

An ill-formed part is a **maximal subpart**: as many bytes as could still have
begun a character, or a single byte that cannot begin one. The range that the byte
after a lead byte may have is what keeps out overlong forms, surrogates and code
points above the last plane, so it is part of the state.
-/

namespace BenchReport.Text

/-- A character of which some bytes have been read. -/
structure Partial where
  /-- How many bytes are still to come. -/
  missing : Nat
  /-- The least byte that may come next. -/
  low : UInt8
  /-- The greatest byte that may come next. -/
  high : UInt8
  /-- The bits read so far. -/
  bits : Nat

/-- What a byte begins: a character by itself, a longer character, or nothing. -/
inductive Lead where
  /-- An ASCII character. -/
  | single (c : Char)
  /-- The first byte of a longer character. -/
  | opens (p : Partial)
  /-- A byte that begins no character. -/
  | invalid

/-- The part that a byte can play at the start of a character. -/
def lead (b : UInt8) : Lead :=
  if b ≤ 0x7f then .single (Char.ofNat b.toNat)
  else if b < 0xc2 then .invalid
  else if b ≤ 0xdf then .opens ⟨1, 0x80, 0xbf, b.toNat % 32⟩
  else if b = 0xe0 then .opens ⟨2, 0xa0, 0xbf, 0⟩
  else if b = 0xed then .opens ⟨2, 0x80, 0x9f, 13⟩
  else if b ≤ 0xef then .opens ⟨2, 0x80, 0xbf, b.toNat % 16⟩
  else if b = 0xf0 then .opens ⟨3, 0x90, 0xbf, 0⟩
  else if b ≤ 0xf3 then .opens ⟨3, 0x80, 0xbf, b.toNat % 8⟩
  else if b = 0xf4 then .opens ⟨3, 0x80, 0x8f, 4⟩
  else .invalid

/-- The reader between two bytes: the units read so far, last first, and the
character that is being read, if any. A unit is a character, or `none` for an
ill-formed part. -/
structure Decoding where
  /-- The finished units, last first. -/
  units : List (Option Char)
  /-- The unfinished character. -/
  pending : Option Partial

/-- Takes in a byte that stands at the start of a character. -/
def Decoding.start (units : List (Option Char)) (b : UInt8) : Decoding :=
  match lead b with
  | .single c => ⟨some c :: units, none⟩
  | .opens p => ⟨units, some p⟩
  | .invalid => ⟨none :: units, none⟩

/-- Takes in one byte. A byte that cannot continue the unfinished character closes
it as an ill-formed part and is then read afresh. -/
def Decoding.feed (d : Decoding) (b : UInt8) : Decoding :=
  match d.pending with
  | none => .start d.units b
  | some p =>
    if p.low ≤ b && b ≤ p.high then
      let bits := p.bits * 64 + b.toNat % 64
      if p.missing ≤ 1 then ⟨some (Char.ofNat bits) :: d.units, none⟩
      else ⟨d.units, some ⟨p.missing - 1, 0x80, 0xbf, bits⟩⟩
    -- the byte may begin a character of its own
    else .start (none :: d.units) b

/-- The units at the end of the bytes, in order: an unfinished character is one
ill-formed part. -/
def Decoding.finish (d : Decoding) : List (Option Char) :=
  match d.pending with
  | none => d.units.reverse
  | some _ => (none :: d.units).reverse

/-- The units of a sequence of bytes. -/
def units (bytes : List UInt8) : List (Option Char) :=
  (bytes.foldl Decoding.feed ⟨[], none⟩).finish

/-- The character that stands for an ill-formed part. -/
def replacementChar : Char := Char.ofNat 0xfffd

/-- The text of the bytes, each ill-formed part replaced by one character. -/
def decodeLossy (bytes : List UInt8) : List Char :=
  (units bytes).map fun unit => unit.getD replacementChar

/-- The text of the bytes, if none of them is ill-formed. -/
def decodeStrict? (bytes : List UInt8) : Option (List Char) :=
  let us := units bytes
  if us.all Option.isSome then some (us.filterMap id) else none

/-- The bytes of a text. -/
def encode (s : String) : List UInt8 := s.toUTF8.toList

/-- How many bytes a text takes. -/
def byteCount (s : List Char) : Nat := s.foldl (fun n c => n + c.utf8Size) 0

end BenchReport.Text
