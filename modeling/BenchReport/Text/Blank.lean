/-!
# Blanks and words

A **blank** is a character with the Unicode property `White_Space`. The set is
wider than the ASCII blanks – it has the no-break space and the line separators –
and it leaves out the zero-width characters, which print nothing but separate
nothing either.

Two operations rest on it: `BenchReport.Text.trim` takes the blanks off both ends
of a text, and `BenchReport.Text.words` cuts it into its maximal blank-free runs.
Both work on lists of characters, so that what they do is a statement about lists:
no word is empty, no word holds a blank, and nothing but blanks is lost.
-/

namespace BenchReport.Text

/-- A character with the Unicode property `White_Space`. -/
def isBlank (c : Char) : Bool :=
  let n := c.toNat
  (0x09 ≤ n && n ≤ 0x0d) || n = 0x20 || n = 0x85 || n = 0xa0 || n = 0x1680 ||
    (0x2000 ≤ n && n ≤ 0x200a) || n = 0x2028 || n = 0x2029 || n = 0x202f || n = 0x205f ||
    n = 0x3000

/-! ### Taking blanks off the ends -/

/-- The text from its first character that is not a blank. -/
def trimLeft (s : List Char) : List Char := s.dropWhile isBlank

/-- The text up to its last character that is not a blank. -/
def trimRight (s : List Char) : List Char := (s.reverse.dropWhile isBlank).reverse

/-- The text between its first and its last character that are no blanks. -/
def trim (s : List Char) : List Char := trimRight (trimLeft s)

/-! ### Words -/

/-- A cut in progress, read from the right: the word that the next character may
still extend, and the words to the right of it. -/
structure Cut where
  /-- The characters of the open word. -/
  current : List Char
  /-- The words to its right. -/
  closed : List (List Char)

/-- All words of a cut: an open word counts once it has a character. -/
def Cut.words (cut : Cut) : List (List Char) :=
  if cut.current.isEmpty then cut.closed else cut.current :: cut.closed

/-- A blank closes the open word, any other character extends it. -/
def Cut.extend (c : Char) (cut : Cut) : Cut :=
  if isBlank c then ⟨[], cut.words⟩ else ⟨c :: cut.current, cut.closed⟩

/-- The maximal blank-free runs of a text, in order. -/
def words (s : List Char) : List (List Char) := (s.foldr Cut.extend ⟨[], []⟩).words

/-- What a word is: at least one character, and no blank. -/
def IsWord (w : List Char) : Prop := w ≠ [] ∧ ∀ c ∈ w, isBlank c = false

end BenchReport.Text
