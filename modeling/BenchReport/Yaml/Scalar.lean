import BenchReport.Yaml.Cursor

/-!
# YAML scalars

A scalar is plain or stands in single or double quotes, and each kind may go on over
several lines. Line ends are then **folded**: a single one is a space, of several the
first is dropped, and the blanks around them do not count.

A plain scalar ends where its line would be read as something else – before a colon
that ends a word, before a comment, and between brackets before a comma or a bracket –
or where the next line is not indented enough to belong to it. In single quotes a
quote is written twice. In double quotes a backslash begins an escape; before a line
end it takes the line end away.
-/

namespace BenchReport.Yaml

/-! ### Gaps -/

/-- What has been passed since the last visible character of a scalar, last character
first. -/
inductive Gap where
  /-- Blanks of a line. -/
  | blanks (passed : List Char)
  /-- Line ends, and whether an escaped one came before them. -/
  | lines (escaped : Bool) (breaks : List Char)
  deriving DecidableEq, Repr

namespace Gap

/-- Nothing passed. -/
def none : Gap := blanks []

/-- Whether a line end has been passed. -/
def crossed : Gap → Bool
  | blanks _ => false
  | lines _ _ => true

/-- Passes a blank. -/
def space (c : Char) : Gap → Gap
  | blanks passed => blanks (c :: passed)
  | lines escaped breaks => lines escaped breaks

/-- Passes a line end. -/
def lineEnd (c : Char) : Gap → Gap
  | blanks _ => lines false [c]
  | lines escaped breaks => lines escaped (c :: breaks)

/-- What a gap between visible characters comes to, last character first. -/
def folded : Gap → List Char
  | blanks passed => passed
  | lines true breaks => breaks
  | lines false ['\n'] => [' ']
  -- the line end passed first is the last of the list; only a newline is dropped
  | lines false breaks => if breaks.getLast? = some '\n' then breaks.dropLast else breaks

end Gap

/-! ### Plain scalars -/

/-- Characters that mean something in a list between brackets. -/
def isFlowMark (c : Char) : Bool :=
  c = ',' || c = '[' || c = ']' || c = '\x7b' || c = '\x7d'

/-- Characters that no plain scalar begins with, or only with another behind them. -/
def isIndicator (c : Char) : Bool :=
  isFlowMark c || "-?:#&*!|>'\"%@\x60".toList.contains c

/-- Whether a plain scalar begins here. -/
def beginsPlain (flow : Bool) : List Char → Bool
  | [] => false
  | '-' :: rest => !endsWord rest
  | c :: rest =>
    if isIndicator c then (c = '?' || c = ':') && !flow && !endsWord rest
    else !isBreak c && !isSpace c

/-- Whether a plain scalar ends before a visible character. -/
def endsPlain (flow : Bool) (least column : Nat) (gap : Gap) : List Char → Bool
  | [] => true
  | x :: rest =>
    gap.crossed && !flow && column < least ||
    x = '#' && gap ≠ .none ||
    column = 0 && (isMark '-' (x :: rest) || isMark '.' (x :: rest)) ||
    x = ':' && endsWord rest ||
    flow && isFlowMark x

/-- Whether a colon touches a character with which, between brackets, it means
neither a key nor a part of a word. -/
def isStrayColon (flow : Bool) : List Char → Bool
  | ':' :: c :: _ => flow && (isFlowMark c || c = '?')
  | _ => false

/-- Reads a plain scalar from behind the characters read before, last first. Its
further lines have to be indented to the column `least`. -/
def plainFrom (flow : Bool) (least : Nat) (text : List Char) (gap : Gap) (line column : Nat) :
    List Char → Option (String × Cursor)
  | [] => some (String.ofList text.reverse, ⟨[], line, column, gap.crossed⟩)
  | x :: rest =>
    if isBreak x then plainFrom flow least text (gap.lineEnd x) (line + 1) 0 rest
    else if isSpace x then
      -- indentation is made of spaces
      if x = '\t' && gap.crossed && column < least then none
      else plainFrom flow least text (gap.space x) line (column + 1) rest
    else if endsPlain flow least column gap (x :: rest) then
      some (String.ofList text.reverse, ⟨x :: rest, line, column, gap.crossed⟩)
    else if isStrayColon flow (x :: rest) then none
    else plainFrom flow least (x :: (gap.folded ++ text)) .none line (column + 1) rest

/-! ### Scalars in quotes -/

/-- Reads the rest of a scalar in single quotes. -/
def singleFrom (text : List Char) (gap : Gap) (line column : Nat) :
    List Char → Option (String × Cursor)
  | [] => none
  | x :: rest =>
    if column = 0 && (isMark '-' (x :: rest) || isMark '.' (x :: rest)) then none
    else if isBreak x then singleFrom text (gap.lineEnd x) (line + 1) 0 rest
    else if isSpace x then singleFrom text (gap.space x) line (column + 1) rest
    else if x = '\'' then
      match rest with
      | '\'' :: rest => singleFrom ('\'' :: (gap.folded ++ text)) .none line (column + 2) rest
      | rest =>
        some (String.ofList (gap.folded ++ text).reverse, ⟨rest, line, column + 1, false⟩)
    else singleFrom (x :: (gap.folded ++ text)) .none line (column + 1) rest

/-- What an escape of one letter stands for. -/
def escapedChar? : Char → Option Char
  | '0' => some '\x00'
  | 'a' => some '\x07'
  | 'b' => some '\x08'
  | 't' => some '\t'
  | '\t' => some '\t'
  | 'n' => some '\n'
  | 'v' => some '\x0b'
  | 'f' => some '\x0c'
  | 'r' => some '\r'
  | 'e' => some '\x1b'
  | ' ' => some ' '
  | '"' => some '"'
  | '/' => some '/'
  | '\\' => some '\\'
  | 'N' => some '\u0085'
  | '_' => some '\u00a0'
  | 'L' => some '\u2028'
  | 'P' => some '\u2029'
  | _ => none

/-- How many digits an escape by number has. -/
def escapeWidth? : Char → Option Nat
  | 'x' => some 2
  | 'u' => some 4
  | 'U' => some 8
  | _ => none

/-- The value of a hexadecimal digit. -/
def hexDigit? (c : Char) : Option Nat :=
  if c.isDigit then some (c.toNat - '0'.toNat)
  else if 'a' ≤ c && c ≤ 'f' then some (c.toNat - 'a'.toNat + 10)
  else if 'A' ≤ c && c ≤ 'F' then some (c.toNat - 'A'.toNat + 10)
  else none

/-- The character of a number, if it has one. -/
def charOfNumber? (n : Nat) : Option Char :=
  if n.isValidChar then some (Char.ofNat n) else none

/-- Reads the rest of a scalar in double quotes. Within an escape by number, `digits`
holds how many of its digits are still to come and the value of those before. -/
def doubleFrom (text : List Char) (gap : Gap) (digits : Option (Nat × Nat))
    (line column : Nat) : List Char → Option (String × Cursor)
  | [] => none
  | x :: rest =>
    match digits with
    | some (left, value) =>
      match hexDigit? x with
      | none => none
      | some digit =>
        let value := 16 * value + digit
        if left ≤ 1 then
          match charOfNumber? value with
          | none => none
          | some c => doubleFrom (c :: text) .none none line (column + 1) rest
        else doubleFrom text .none (some (left - 1, value)) line (column + 1) rest
    | none =>
      if column = 0 && (isMark '-' (x :: rest) || isMark '.' (x :: rest)) then none
      else if isBreak x then doubleFrom text (gap.lineEnd x) none (line + 1) 0 rest
      else if isSpace x then doubleFrom text (gap.space x) none line (column + 1) rest
      else if x = '"' then
        some (String.ofList (gap.folded ++ text).reverse, ⟨rest, line, column + 1, false⟩)
      else if x = '\\' then
        match rest with
        | [] => none
        | y :: rest =>
          let text := gap.folded ++ text
          -- an escaped line end takes the blanks before the next line along
          if isBreak y then doubleFrom text (.lines true []) none (line + 1) 0 rest
          else
            match escapedChar? y, escapeWidth? y with
            | some c, _ => doubleFrom (c :: text) .none none line (column + 2) rest
            | none, some width =>
              doubleFrom text .none (some (width, 0)) line (column + 2) rest
            | none, none => none
      else doubleFrom (x :: (gap.folded ++ text)) .none none line (column + 1) rest

/-- Reads a scalar that begins here: whether it is plain, its text and the place behind
it. -/
def scalar? (flow : Bool) (least : Nat) (c : Cursor) : Option (Bool × String × Cursor) :=
  match c.rest with
  | '\'' :: rest =>
    (singleFrom [] .none c.line (c.column + 1) rest).map fun found => (false, found)
  | '"' :: rest =>
    (doubleFrom [] .none none c.line (c.column + 1) rest).map fun found => (false, found)
  | rest =>
    if beginsPlain flow rest then
      (plainFrom flow least [] .none c.line c.column rest).map fun found => (true, found)
    else none

end BenchReport.Yaml
