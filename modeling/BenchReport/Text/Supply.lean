import BenchReport.Text.Line

/-!
# Taking lines off a stream

A reader does not have the lines of a stream, it has to ask for them one by one, and
every time the stream may fail instead of giving one. A `BenchReport.Text.Supply` is
a stream of which some lines have been taken.

A line is given as soon as its newline has come: a failure behind it does not matter
yet. Only where no newline is left is it the end of the stream that counts. There a
failure takes the bytes with it that stand in front of it, however many they are,
while a stream that ends gives them as its last line.
-/

namespace BenchReport.Text

/-- A cut leaves less. -/
theorem length_lt_of_cutAt?_eq_some {α : Type} {p : α → Bool} {s a b : List α}
    (h : cutAt? p s = some (a, b)) : b.length < s.length := by
  have hlength := (List.dropWhile_suffix (l := s) fun x => !p x).length_le
  rw [cutAt?] at h
  split at h
  · cases h
  · rename_i x rest hdrop
    simp only [Option.some.injEq, Prod.mk.injEq] at h
    rw [hdrop, h.2, List.length_cons] at hlength
    exact hlength

/-- A stream of which some lines have been taken. -/
structure Supply where
  /-- How many lines have been taken. -/
  taken : Nat
  /-- What is left of the stream. -/
  stream : Stream

namespace Supply

/-- A stream of which no line has been taken. -/
def ofStream (stream : Stream) : Supply := ⟨0, stream⟩

/-- How many bytes are left. -/
def size (supply : Supply) : Nat := supply.stream.bytes.length

/-- The supply behind a line, with these bytes left. -/
def behind (supply : Supply) (bytes : List UInt8) : Supply :=
  ⟨supply.taken + 1, { supply.stream with bytes }⟩

/-- Takes the next line, if the stream has one. -/
def next (supply : Supply) : Except StreamFault (Option (Line × Supply)) :=
  match cutAt? (· = newline) supply.stream.bytes with
  | some (line, bytes) =>
    .ok (some (⟨supply.taken + 1, decodeLossy (dropReturn line)⟩, supply.behind bytes))
  | none =>
    match supply.stream.failure with
    | some fault => .error fault
    | none =>
      if supply.stream.bytes.isEmpty then .ok none
      else .ok (some (⟨supply.taken + 1, decodeLossy supply.stream.bytes⟩, supply.behind []))

/-- **Every line that is taken leaves fewer bytes.** -/
theorem size_of_next {supply rest : Supply} {line : Line}
    (h : supply.next = .ok (some (line, rest))) : rest.size < supply.size := by
  rw [next] at h
  split at h
  · rename_i ended bytes hcut
    cases h
    exact length_lt_of_cutAt?_eq_some hcut
  · split at h
    · cases h
    · split at h
      · cases h
      · rename_i hempty
        cases h
        exact List.length_pos_iff.mpr (mt List.isEmpty_iff.mpr hempty)

end Supply

end BenchReport.Text
