import BenchReport.Yaml.Basic
import BenchReport.Yaml.Scalar

/-!
# Reading YAML

A document is read in two styles. In **block style** indentation shows what belongs
together: the items of a sequence and the keys of a mapping stand in one column, and
what belongs to them stands further right – save that a sequence may be as far left as
the key whose value it is. In **flow style** brackets show it, and indentation means
nothing.

A key stands on one line with its colon. What is read here is the part of the language
that documents written by hand consist of: anchors and aliases, tags, directives, block
scalars and keys with a question mark are refused, and so is a text with more than one
document.

Each function takes a bound on the depth and length of what it reads, which
`BenchReport.Yaml.read?` computes from the text. Every step either reads a character or
is followed by one that does, so the bound is never the reason for a refusal.
-/

namespace BenchReport.Yaml

/-! ### Nodes -/

mutual

/-- Reads a node in flow style, or a scalar, that begins here. -/
def node? : Nat → Bool → Nat → Cursor → Option (Yaml × Cursor)
  | 0, _, _, _ => none
  | fuel + 1, flow, least, c =>
    match c.rest with
    | '[' :: _ => flowItems? fuel least [] (c.drop 1)
    | '\x7b' :: _ => flowEntries? fuel least [] (c.drop 1)
    | _ => (scalar? flow least c).map fun found => (.scalar found.1 found.2.1, found.2.2)

/-- Reads a node between brackets; where the value of a key is due, it may be missing. -/
def flowNode? (fuel : Nat) (optional : Bool) (least : Nat) (c : Cursor) :
    Option (Yaml × Cursor) :=
  match fuel with
  | 0 => none
  | fuel + 1 =>
    let c := c.skip true
    if c.atEnd then none
    else
      match c.rest with
      | ',' :: _ => if optional then some (blank, c) else none
      | ']' :: _ => if optional then some (blank, c) else none
      | '\x7d' :: _ => if optional then some (blank, c) else none
      | _ =>
        match node? fuel true least c with
        | none => none
        | some (value, after) => some (value, after.skip true)

/-- Reads a node between brackets and, if a colon follows it on its line, its value. -/
def flowEntry? : Nat → Nat → Cursor → Option (Yaml × Option Yaml × Cursor)
  | 0, _, _ => none
  | fuel + 1, least, c =>
    let c := c.skip true
    match flowNode? fuel false least c with
    | none => none
    | some (key, after) =>
      if after.atColon true then
        -- a key ends on the line on which it begins
        if after.line = c.line then
          match flowNode? fuel true least (after.drop 1) with
          | none => none
          | some (value, rest) => some (key, some value, rest)
        else none
      else some (key, none, after)

/-- Reads the rest of a sequence in brackets behind the items before, last first. -/
def flowItems? : Nat → Nat → List Yaml → Cursor → Option (Yaml × Cursor)
  | 0, _, _, _ => none
  | fuel + 1, least, items, c =>
    let c := c.skip true
    match c.rest with
    | ']' :: _ => some (.sequence items.reverse, c.drop 1)
    | _ =>
      match flowEntry? fuel least c with
      | none => none
      | some (key, value, after) =>
        -- a key with its value, by itself among items, is a mapping of one entry
        let item := match value with
          | none => key
          | some value => .mapping [(key, value)]
        match after.rest with
        | ',' :: _ => flowItems? fuel least (item :: items) (after.drop 1)
        | ']' :: _ => some (.sequence (item :: items).reverse, after.drop 1)
        | _ => none

/-- Reads the rest of a mapping in braces behind the entries before, last first. -/
def flowEntries? : Nat → Nat → List (Yaml × Yaml) → Cursor → Option (Yaml × Cursor)
  | 0, _, _, _ => none
  | fuel + 1, least, entries, c =>
    let c := c.skip true
    match c.rest with
    | '\x7d' :: _ => some (.mapping entries.reverse, c.drop 1)
    | _ =>
      match flowEntry? fuel least c with
      | none => none
      | some (key, value, after) =>
        let entries := (key, value.getD blank) :: entries
        match after.rest with
        | ',' :: _ => flowEntries? fuel least entries (after.drop 1)
        | '\x7d' :: _ => some (.mapping entries.reverse, after.drop 1)
        | _ => none

end

/-- Reads a key of a block mapping, up to its colon. -/
def blockKey? (fuel least : Nat) (c : Cursor) : Option (Yaml × Cursor) :=
  match node? fuel false least c with
  | none => none
  | some (key, after) =>
    let after := after.skip false
    if after.atColon false && after.line = c.line then some (key, after) else none

mutual

/-- Reads a node in block style, whose characters stand in the column `least` or
further right. Where none does, the node is blank. -/
def blockNode? : Nat → Nat → Cursor → Option (Yaml × Cursor)
  | 0, _, _ => none
  | fuel + 1, least, c =>
    let c := c.skip false
    if c.atEnd || c.column < least then some (blank, c)
    else if c.atItem then
      if c.free then blockItems? fuel c.column [] c else none
    else
      match node? fuel false least c with
      | none => none
      | some (value, behind) =>
        let after := behind.skip false
        -- a colon makes what has just been read the first key of a mapping
        if after.atColon false then
          if after.line = c.line && c.free then blockEntries? fuel c.column [] value after
          else none
        else some (value, after)

/-- Reads the rest of a block sequence in the given column behind the items before,
last first. -/
def blockItems? : Nat → Nat → List Yaml → Cursor → Option (Yaml × Cursor)
  | 0, _, _, _ => none
  | fuel + 1, column, items, c =>
    if c.atItem && c.free && c.column = column && !c.atEnd then
      match blockNode? fuel (column + 1) c.behindDash with
      | none => none
      | some (item, after) => blockItems? fuel column (item :: items) (after.skip false)
    else some (.sequence items.reverse, c)

/-- Reads the rest of a block mapping in the given column, from the colon behind a
key, behind the entries before, last first. -/
def blockEntries? : Nat → Nat → List (Yaml × Yaml) → Yaml → Cursor → Option (Yaml × Cursor)
  | 0, _, _, _, _ => none
  | fuel + 1, column, entries, key, c =>
    let start := (c.drop 1).skip false
    -- the dashes of a sequence may stand below the first letter of its key
    let found :=
      if start.atItem && start.column = column && !start.atEnd then
        blockItems? fuel column [] start
      else blockNode? fuel (column + 1) start
    match found with
    | none => none
    | some (value, after) =>
      let c := after.skip false
      let entries := (key, value) :: entries
      if c.column = column && c.free && !c.atEnd then
        match blockKey? fuel (column + 1) c with
        | none => none
        | some (key, c) => blockEntries? fuel column entries key c
      else some (.mapping entries.reverse, c)

end

/-! ### Documents -/

/-- Whether a character may stand in a document. -/
def isPrintable (c : Char) : Bool :=
  let n := c.toNat
  n = 0x09 || n = 0x0a || 0x20 ≤ n && n ≤ 0x7e || 0xa0 ≤ n && n ≤ 0xd7ff ||
    0xe000 ≤ n && n ≤ 0xfffd && n ≠ 0xfeff || 0x10000 ≤ n

/-- Adds a character to a text given backwards, with a newline for every common kind
of line end; the flag says whether the last one was a carriage return. -/
def unifyStep (text : List Char × Bool) (c : Char) : List Char × Bool :=
  if c = '\n' && text.2 then (text.1, false)
  else if c = '\r' then ('\n' :: text.1, true)
  else if c.toNat = 0x85 then ('\n' :: text.1, false)
  else (c :: text.1, false)

/-- A text in which every line of a common kind ends in a newline. -/
def unifyLineEnds (text : List Char) : List Char := (text.foldl unifyStep ([], false)).1.reverse

/-- A text without a byte order mark at its beginning. -/
def dropMark : List Char → List Char
  | [] => []
  | c :: rest => if c.toNat = 0xfeff then rest else c :: rest

/-- Whether nothing follows but marks that end a document. -/
def isDone : Nat → Cursor → Bool
  | 0, _ => false
  | fuel + 1, c =>
    let c := c.skip false
    if c.column = 0 && isMark '.' c.rest then isDone fuel (c.drop 3) else c.rest.isEmpty

/-- The document that a text consists of. -/
def readChars? (text : List Char) : Option Yaml :=
  let fuel := 8 * text.length + 16
  let c := (Cursor.start text).skip false
  if c.rest.isEmpty then none
  else
    let c := if c.column = 0 && isMark '-' c.rest then c.drop 3 else c
    match blockNode? fuel 0 c with
    | none => none
    | some (value, after) => if isDone fuel after then some value else none

/-- The document that a text consists of, if it is one. -/
def read? (text : String) : Option Yaml :=
  let text := unifyLineEnds (dropMark text.toList)
  if text.all isPrintable then readChars? text else none

end BenchReport.Yaml
