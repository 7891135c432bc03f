import BenchReport.Decimal.Layout

/-!
# JSON text

A JSON value and its two texts: the **compact** one, without any blank, and the
**pretty** one, indented by two blanks for each level. Fields are written in the
order of the list.

Numbers are whole or double. A double always shows that it is one – with a decimal
or an exponent – and an infinity or a NaN, for which JSON has no text, is `null`.
In strings only the quote, the backslash and the control characters are escaped.
-/

namespace BenchReport

/-- A JSON value. -/
inductive Json where
  /-- The value `null`. -/
  | null
  /-- A whole number. -/
  | integer (n : Int)
  /-- A double. -/
  | number (x : Float)
  /-- A string. -/
  | text (s : String)
  /-- A list. -/
  | list (items : List Json)
  /-- An object, its fields in order. -/
  | object (fields : List (String × Json))

namespace Json

/-- A value that may be missing. -/
def ofOption {α : Type} (f : α → Json) : Option α → Json
  | none => null
  | some a => f a

/-- A natural number. -/
def nat (n : Nat) : Json := integer n

/-! ### Leaves -/

/-- The digits of a control character's code, of which there are two. -/
def hexByte (n : Nat) : List Char := [Nat.digitChar (n / 16), Nat.digitChar (n % 16)]

/-- How a character stands in a string. -/
def escapeChar (c : Char) : List Char :=
  match c with
  | '"' => ['\\', '"']
  | '\\' => ['\\', '\\']
  | '\n' => ['\\', 'n']
  | '\r' => ['\\', 'r']
  | '\t' => ['\\', 't']
  | c =>
    if c.toNat = 8 then ['\\', 'b']
    else if c.toNat = 12 then ['\\', 'f']
    else if c.toNat < 32 then ['\\', 'u', '0', '0'] ++ hexByte c.toNat
    else [c]

/-- A string in quotes. -/
def quote (s : String) : String :=
  String.ofList ('"' :: s.toList.flatMap escapeChar ++ ['"'])

/-- The text of a double. -/
def numberText (x : Float) : String :=
  match Decimal.Binary.ofFloat x with
  | .nan => "null"
  | .infinite _ => "null"
  | .finite negative m =>
    String.ofList (Decimal.signChars negative ++ Decimal.exponentialChars m)

/-! ### Compact text -/

mutual

/-- The text of a value without blanks. -/
def compact : Json → String
  | null => "null"
  | integer n => toString n
  | number x => numberText x
  | text s => quote s
  | list items => "[" ++ String.intercalate "," (compactItems items) ++ "]"
  | object fields => "\x7b" ++ String.intercalate "," (compactFields fields) ++ "\x7d"

/-- The texts of the items of a list. -/
def compactItems : List Json → List String
  | [] => []
  | item :: rest => compact item :: compactItems rest

/-- The texts of the fields of an object. -/
def compactFields : List (String × Json) → List String
  | [] => []
  | (key, value) :: rest => (quote key ++ ":" ++ compact value) :: compactFields rest

end

/-! ### Pretty text -/

/-- A block of lines between two brackets; an empty one stays on its line. -/
def block (opening closing : String) (depth : Nat) (lines : List String) : String :=
  let indent (n : Nat) := String.ofList (List.replicate (2 * n) ' ')
  if lines.isEmpty then opening ++ closing
  else
    opening ++ "\n" ++ String.intercalate ",\n" (lines.map (indent (depth + 1) ++ ·)) ++ "\n" ++
      indent depth ++ closing

mutual

/-- The text of a value, indented from `depth` on. -/
def prettyFrom (depth : Nat) : Json → String
  | null => "null"
  | integer n => toString n
  | number x => numberText x
  | text s => quote s
  | list items => block "[" "]" depth (prettyItems (depth + 1) items)
  | object fields => block "\x7b" "\x7d" depth (prettyFields (depth + 1) fields)

/-- The texts of the items of a list. -/
def prettyItems (depth : Nat) : List Json → List String
  | [] => []
  | item :: rest => prettyFrom depth item :: prettyItems depth rest

/-- The texts of the fields of an object. -/
def prettyFields (depth : Nat) : List (String × Json) → List String
  | [] => []
  | (key, value) :: rest =>
    (quote key ++ ": " ++ prettyFrom depth value) :: prettyFields depth rest

end

/-! ### Sorted fields -/

mutual

/-- The same value with the fields of every object sorted by name. -/
def sortFields : Json → Json
  | null => null
  | integer n => integer n
  | number x => number x
  | text s => text s
  | list items => list (sortItems items)
  | object fields => object ((sortEntries fields).mergeSort fun a b => (compare a.1 b.1).isLE)

/-- The same items, the fields of every object in them sorted by name. -/
def sortItems : List Json → List Json
  | [] => []
  | item :: rest => sortFields item :: sortItems rest

/-- The same fields in their order, the fields of every object in them sorted by name. -/
def sortEntries : List (String × Json) → List (String × Json)
  | [] => []
  | (key, value) :: rest => (key, sortFields value) :: sortEntries rest

end

/-- The indented text of a value. -/
def pretty (value : Json) : String := prettyFrom 0 value

end Json

end BenchReport
