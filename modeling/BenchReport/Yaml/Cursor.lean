/-!
# A place in a YAML text

Reading goes from place to place. A **cursor** is a place: the characters that follow
it, its line and column, and whether it is *free*.

A place is free if a block collection may begin there, which is so at the beginning of
a line and behind the dash of an item, and nowhere else: what follows the colon of an
entry on its line is no collection. Freedom also decides about tabs. At a free place
blanks are indentation, and tabs do not indent.
-/

namespace BenchReport.Yaml

/-- Characters that end a line. -/
def isBreak (c : Char) : Bool := c = '\n' || c.toNat = 0x2028 || c.toNat = 0x2029

/-- Characters that separate within a line. -/
def isSpace (c : Char) : Bool := c = ' ' || c = '\t'

/-- Whether the text ends here, or the line, or a blank follows. -/
def endsWord : List Char → Bool
  | [] => true
  | c :: _ => isBreak c || isSpace c

/-- A mark between documents: three characters of one kind, dashes before a document
and dots behind it. -/
def isMark (kind : Char) : List Char → Bool
  | a :: b :: c :: rest => a = kind && b = kind && c = kind && endsWord rest
  | _ => false

/-- A place in a text. -/
structure Cursor where
  /-- What follows. -/
  rest : List Char
  /-- The line, counted from zero. -/
  line : Nat
  /-- The column, counted from zero. -/
  column : Nat
  /-- Whether a block collection may begin here. -/
  free : Bool
  deriving DecidableEq, Repr

namespace Cursor

/-- The place before a text. -/
def start (text : List Char) : Cursor := ⟨text, 0, 0, true⟩

/-- The place behind the next characters of a line. -/
def drop (n : Nat) (c : Cursor) : Cursor :=
  ⟨c.rest.drop n, c.line, c.column + n, false⟩

/-- Passes over blanks, line ends and comments. -/
def skipFrom (flow comment : Bool) (line column : Nat) (free : Bool) : List Char → Cursor
  | [] => ⟨[], line, column, free⟩
  | x :: rest =>
    if isBreak x then skipFrom flow false (line + 1) 0 true rest
    else if comment then skipFrom flow true line (column + 1) free rest
    else if x = ' ' || x = '\t' && (flow || !free) then
      skipFrom flow false line (column + 1) free rest
    else if x = '#' then skipFrom flow true line (column + 1) free rest
    else ⟨x :: rest, line, column, free⟩

/-- The next place where something is written. Between brackets tabs are blanks
everywhere. -/
def skip (flow : Bool) (c : Cursor) : Cursor :=
  skipFrom flow false c.line c.column c.free c.rest

/-- Whether a document ends here. -/
def atEnd (c : Cursor) : Bool :=
  c.rest.isEmpty || c.column = 0 && (isMark '-' c.rest || isMark '.' c.rest)

/-- Whether an item of a block sequence begins here. -/
def atItem (c : Cursor) : Bool :=
  match c.rest with
  | '-' :: rest => endsWord rest
  | _ => false

/-- The place behind the dash of an item. -/
def behindDash (c : Cursor) : Cursor := { c.drop 1 with free := true }

/-- Whether the colon of an entry is here. Between brackets it may touch the value. -/
def atColon (flow : Bool) (c : Cursor) : Bool :=
  match c.rest with
  | ':' :: rest => flow || endsWord rest
  | _ => false

end Cursor

end BenchReport.Yaml
