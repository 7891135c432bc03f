import BenchReport.Random.Words

/-!
# The ChaCha stream with twelve rounds

A block of sixteen words of 32 bits – four constants, a key of eight, a block counter of
two and two zeros – is stirred for twelve rounds and added to itself. The blocks for the
counters 0, 1, 2, … one after the other are the stream; a word of 64 bits is two of its
words, the low one first.

The key is spread out from a seed of 64 bits by a congruential sequence whose states are
rotated by their own upper bits.
-/

namespace BenchReport.Random

/-! ### Stirring -/

/-- Four words that are stirred together. -/
structure Quarter where
  /-- The first word. -/
  a : UInt32
  /-- The second word. -/
  b : UInt32
  /-- The third word. -/
  c : UInt32
  /-- The fourth word. -/
  d : UInt32
  deriving DecidableEq, Repr

/-- A word with its bits moved up by `n` places, those that leave coming in again. -/
def rotateLeft (x : UInt32) (n : UInt32) : UInt32 := (x <<< n) ||| (x >>> (32 - n))

/-- A word with its bits moved down by `n` places, those that leave coming in again. -/
def rotateRight (x : UInt32) (n : UInt32) : UInt32 :=
  if n = 0 then x else rotateLeft x (32 - n)

/-- Stirs four words: add, exclude, rotate, four times over. -/
def Quarter.stir (q : Quarter) : Quarter :=
  let a := q.a + q.b
  let d := rotateLeft (q.d ^^^ a) 16
  let c := q.c + d
  let b := rotateLeft (q.b ^^^ c) 12
  let a := a + b
  let d := rotateLeft (d ^^^ a) 8
  let c := c + d
  let b := rotateLeft (b ^^^ c) 7
  ⟨a, b, c, d⟩

/-- A block of sixteen words, by its four columns. -/
structure Block where
  /-- The first column. -/
  w : Quarter
  /-- The second column. -/
  x : Quarter
  /-- The third column. -/
  y : Quarter
  /-- The fourth column. -/
  z : Quarter
  deriving DecidableEq, Repr

namespace Block

/-- Stirs each column. -/
def stirColumns (b : Block) : Block := ⟨b.w.stir, b.x.stir, b.y.stir, b.z.stir⟩

/-- Moves the rows sideways, so that diagonals become columns. -/
def slant (b : Block) : Block :=
  ⟨⟨b.w.a, b.x.b, b.y.c, b.z.d⟩, ⟨b.x.a, b.y.b, b.z.c, b.w.d⟩,
    ⟨b.y.a, b.z.b, b.w.c, b.x.d⟩, ⟨b.z.a, b.w.b, b.x.c, b.y.d⟩⟩

/-- Moves the rows back. -/
def unslant (b : Block) : Block :=
  ⟨⟨b.w.a, b.z.b, b.y.c, b.x.d⟩, ⟨b.x.a, b.w.b, b.z.c, b.y.d⟩,
    ⟨b.y.a, b.x.b, b.w.c, b.z.d⟩, ⟨b.z.a, b.y.b, b.x.c, b.w.d⟩⟩

/-- Two rounds: the columns, then the diagonals. -/
def stir (b : Block) : Block := b.stirColumns.slant.stirColumns.unslant

/-- The words of a block, row by row. -/
def words (b : Block) : List UInt32 :=
  [b.w.a, b.x.a, b.y.a, b.z.a, b.w.b, b.x.b, b.y.b, b.z.b,
    b.w.c, b.x.c, b.y.c, b.z.c, b.w.d, b.x.d, b.y.d, b.z.d]

/-- Applies two rounds `n` times. -/
def stirTimes : Nat → Block → Block
  | 0, b => b
  | n + 1, b => stirTimes n b.stir

end Block

/-! ### The stream -/

/-- The key of a stream: two rows of a block. -/
structure ChaChaKey where
  /-- The first four words. -/
  first : Quarter
  /-- The last four words. -/
  second : Quarter
  deriving DecidableEq, Repr

/-- The block that is stirred for a counter. -/
def ChaChaKey.block (key : ChaChaKey) (counter : UInt64) : Block :=
  let low := counter.toUInt32
  let high := (counter >>> 32).toUInt32
  -- the first row is the text "expand 32-byte k", four characters to a word
  ⟨⟨0x61707865, key.first.a, key.second.a, low⟩, ⟨0x3320646e, key.first.b, key.second.b, high⟩,
    ⟨0x79622d32, key.first.c, key.second.c, 0⟩, ⟨0x6b206574, key.first.d, key.second.d, 0⟩⟩

/-- The part of the stream for a counter: the block, stirred for twelve rounds, added to
itself. -/
def ChaChaKey.output (key : ChaChaKey) (counter : UInt64) : List UInt32 :=
  let b := key.block counter
  List.zipWith (· + ·) b.words (b.stirTimes 6).words

/-- Each two words as one of twice the size, the low one first. -/
def pairWords : List UInt32 → List UInt64
  | low :: high :: rest => (low.toUInt64 ||| (high.toUInt64 <<< 32)) :: pairWords rest
  | _ => []

/-- A place in a stream. -/
structure ChaCha where
  /-- The key of the stream. -/
  key : ChaChaKey
  /-- The counter of the next block. -/
  counter : UInt64
  /-- What is left of the block before it. -/
  ready : List UInt64
  deriving DecidableEq, Repr

namespace ChaCha

/-- The next word, and the place after it. -/
def next (s : ChaCha) : UInt64 × ChaCha :=
  match s.ready with
  | word :: ready => (word, { s with ready })
  | [] =>
    match pairWords (s.key.output s.counter) with
    | word :: ready => (word, ⟨s.key, s.counter + 1, ready⟩)
    | [] => (0, s)

instance : WordSource ChaCha := ⟨next⟩

/-! ### Seeds -/

/-- The word that a state of the sequence gives: two of its parts mixed and rotated by
its uppermost bits. -/
def seedWord (state : UInt64) : UInt32 :=
  rotateRight (((state >>> 18) ^^^ state) >>> 27).toUInt32 (state >>> 59).toUInt32

/-- The next state of the sequence. -/
def seedStep (state : UInt64) : UInt64 := state * 6364136223846793005 + 11634580027462260723

/-- Four words of the sequence after a state, and the state after them. -/
def seedQuarter (state : UInt64) : Quarter × UInt64 :=
  let s1 := seedStep state
  let s2 := seedStep s1
  let s3 := seedStep s2
  let s4 := seedStep s3
  (⟨seedWord s1, seedWord s2, seedWord s3, seedWord s4⟩, s4)

/-- The beginning of the stream of a seed. -/
def ofSeed (seed : UInt64) : ChaCha :=
  let (first, state) := seedQuarter seed
  let (second, _) := seedQuarter state
  ⟨⟨first, second⟩, 0, []⟩

end ChaCha

end BenchReport.Random
