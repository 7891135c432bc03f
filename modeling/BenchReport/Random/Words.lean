/-!
# Sources of random words

Whatever is drawn at random is made from words of 64 bits. A **word source** is a
state from which the next word and the next state follow; what is drawn from it is a
function of the words alone.

Besides the stream cipher of `BenchReport.Random.ChaCha` there is a source that hands
out a given list of words first and then goes on with a simple mixing sequence. It is
the one to use where a draw has to be looked at closely, and it keeps count of the
words it gave.
-/

namespace BenchReport.Random

/-- A state from which random words follow. -/
class WordSource (σ : Type) where
  /-- The next word, and the state after it. -/
  next : σ → UInt64 × σ

/-- The double in the unit interval, one excluded, that a word stands for: its upper
53 bits as a fraction. -/
def unitFloat (word : UInt64) : Float := (word >>> 11).toFloat * 1.1102230246251565e-16

/-- The next double in the unit interval, and the state after it. -/
def nextFloat {σ : Type} [WordSource σ] (state : σ) : Float × σ :=
  let (word, state) := WordSource.next state
  (unitFloat word, state)

/-! ### Given words -/

/-- Words given beforehand, followed by a mixing sequence. -/
structure Scripted where
  /-- The words still to be given. -/
  words : List UInt64
  /-- The state of the sequence after them. -/
  state : UInt64
  /-- How many words have been given. -/
  taken : Nat
  deriving DecidableEq, Repr

namespace Scripted

/-- The source that begins with the given words. -/
def ofList (words : List UInt64) : Scripted := ⟨words, 0, 0⟩

/-- Spreads the bits of a state over a word. -/
def mix (state : UInt64) : UInt64 :=
  let z := (state ^^^ (state >>> 30)) * 0xbf58476d1ce4e5b9
  let z := (z ^^^ (z >>> 27)) * 0x94d049bb133111eb
  z ^^^ (z >>> 31)

/-- The next word, and the source after it. -/
def next (s : Scripted) : UInt64 × Scripted :=
  match s.words with
  | word :: words => (word, ⟨words, s.state, s.taken + 1⟩)
  | [] =>
    let state := s.state + 0x9e3779b97f4a7c15
    (mix state, ⟨[], state, s.taken + 1⟩)

instance : WordSource Scripted := ⟨next⟩

end Scripted

end BenchReport.Random
