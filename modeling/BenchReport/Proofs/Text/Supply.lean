import Mathlib
import BenchReport.Proofs.Text.Line
import BenchReport.Text.Supply

/-!
# What a supply gives

`BenchReport.Text.Supply.next` looks for one newline, `BenchReport.Text.Stream.lines` cuts
at all of them. `BenchReport.Text.Supply.Gives` ties the two together: it says what comes
of asking a supply again and again, namely some lines, and behind them its end or a failure.
A stream gives its lines and then ends as it does
(`BenchReport.Text.Supply.gives_ofStream`), so whatever asks a supply for its lines can be
followed by induction on them.
-/

namespace BenchReport.Text

/-! ### Ended lines -/

section Split

variable {line : List UInt8}

theorem splitLines_append_newline (h : newline ∉ line) (rest : List UInt8) :
    (splitLines (line ++ newline :: rest)).1 = dropReturn line :: (splitLines rest).1 := by
  have hne : rest.splitOn newline ≠ [] := List.splitOn_ne_nil _ _
  simp only [splitLines, splitOn_eq]
  rw [List.splitOn_append_cons_self_of_not_mem h, List.dropLast_cons_of_ne_nil hne, List.map_cons]

theorem splitLines_of_notMem (h : newline ∉ line) : splitLines line = ([], line) := by
  simp only [splitLines, splitOn_eq]
  rw [List.splitOn_eq_singleton h]
  rfl

theorem lineBytes_of_notMem (h : newline ∉ line) :
    lineBytes line = if line.isEmpty then [] else [line] := by
  rw [lineBytes, splitLines_of_notMem h]
  rfl

end Split

/-! ### Numbers -/

theorem numbered_cons (text : List UInt8) (texts : List (List UInt8)) :
    numbered (text :: texts) = ⟨1, decodeLossy text⟩ :: (numbered texts).map (Line.later 1) := by
  rw [numbered, List.zipIdx_cons', List.map_cons, numbered, List.map_map, List.map_map]
  refine congrArg _ (List.map_congr_left fun entry _ => ?_)
  simp [Line.later, Nat.add_comm]

theorem later_later (m n : Nat) (line : Line) : (line.later m).later n = line.later (n + m) := by
  simp [Line.later, Nat.add_assoc]

/-! ### Lines of a stream -/

section Lines

variable {line : List UInt8} {failure : Option StreamFault}

/-- **The first newline ends the first line**, whether or not the stream fails behind it. -/
theorem Stream.lines_append_newline (h : newline ∉ line) (rest : List UInt8) :
    (Stream.mk (line ++ newline :: rest) failure).lines =
      ⟨1, decodeLossy (dropReturn line)⟩ :: (Stream.mk rest failure).lines.map (Line.later 1) := by
  cases failure with
  | none => rw [lines, BenchReport.Text.lines, lineBytes_append_newline h, numbered_cons]; rfl
  | some fault => rw [lines, splitLines_append_newline h, numbered_cons]; rfl

/-- **Bytes without a newline are lost if the stream fails behind them.** -/
theorem Stream.lines_of_notMem (h : newline ∉ line) :
    (Stream.mk line failure).lines =
      if failure.isSome || line.isEmpty then [] else [⟨1, decodeLossy line⟩] := by
  cases failure with
  | none =>
    rw [lines, BenchReport.Text.lines, lineBytes_of_notMem h]
    cases line.isEmpty <;> rfl
  | some fault =>
    rw [lines, splitLines_of_notMem h]
    rfl

end Lines

/-! ### Supplies -/

namespace Supply

/-- What comes of asking a supply again and again: these lines, and then its end or a
failure. -/
inductive Gives : Supply → List Line → Option StreamFault → Prop where
  /-- The supply is at its end. -/
  | done {supply : Supply} (h : supply.next = .ok none) : Gives supply [] none
  /-- The supply fails. -/
  | failed {supply : Supply} {fault : StreamFault} (h : supply.next = .error fault) :
    Gives supply [] (some fault)
  /-- The supply has a further line. -/
  | line {supply rest : Supply} {line : Line} {lines : List Line} {failure : Option StreamFault}
    (h : supply.next = .ok (some (line, rest))) (hrest : Gives rest lines failure) :
    Gives supply (line :: lines) failure

/-- **What a supply gives is determined**, and so is how it ends. -/
theorem Gives.unique {supply : Supply} {lines lines' : List Line}
    {failure failure' : Option StreamFault} (h : supply.Gives lines failure)
    (h' : supply.Gives lines' failure') : lines = lines' ∧ failure = failure' := by
  induction h generalizing lines' with
  | done hnext =>
    cases h' with
    | done => exact ⟨rfl, rfl⟩
    | failed hnext' | line hnext' => cases hnext.symm.trans hnext'
  | failed hnext =>
    cases h' with
    | failed hnext' => exact ⟨rfl, congrArg some (Except.error.inj (hnext.symm.trans hnext'))⟩
    | done hnext' | line hnext' => cases hnext.symm.trans hnext'
  | line hnext _ ih =>
    cases h' with
    | line hnext' hrest' =>
      cases hnext.symm.trans hnext'
      obtain ⟨rfl, rfl⟩ := ih hrest'
      exact ⟨rfl, rfl⟩
    | done hnext' | failed hnext' => cases hnext.symm.trans hnext'

theorem gives (supply : Supply) :
    supply.Gives (supply.stream.lines.map (Line.later supply.taken)) supply.stream.failure := by
  induction hn : supply.size using Nat.strong_induction_on generalizing supply with
  | _ n ih =>
    obtain ⟨taken, bytes, failure⟩ := supply
    cases hcut : cutAt? (· = newline) bytes with
    | some cut =>
      obtain ⟨line, rest⟩ := cut
      have hnext : (Supply.mk taken ⟨bytes, failure⟩).next =
          .ok (some (⟨taken + 1, decodeLossy (dropReturn line)⟩, ⟨taken + 1, rest, failure⟩)) := by
        rw [next, hcut]
        rfl
      have hrest := ih _ (hn ▸ size_of_next hnext) _ rfl
      obtain ⟨x, rfl, hx, hline⟩ := cutAt?_eq_some_iff.mp hcut
      obtain rfl : x = newline := by simpa using hx
      have hmem : newline ∉ line := fun hmem => by simpa using hline newline hmem
      rw [Stream.lines_append_newline hmem, List.map_cons, List.map_map]
      refine .line hnext ?_
      have hlater : Line.later taken ∘ Line.later 1 = Line.later (taken + 1) :=
        funext fun line => later_later 1 taken line
      rw [hlater]
      exact hrest
    | none =>
      have hmem : newline ∉ bytes := fun hmem => by
        simpa using cutAt?_eq_none_iff.mp hcut newline hmem
      rw [Stream.lines_of_notMem hmem]
      cases failure with
      | some fault =>
        refine .failed ?_
        rw [next, hcut]
      | none =>
        cases hempty : bytes.isEmpty with
        | true =>
          refine .done ?_
          simp only [next, hcut, hempty, if_true]
        | false =>
          have hnext : (Supply.mk taken ⟨bytes, none⟩).next =
              .ok (some (⟨taken + 1, decodeLossy bytes⟩, ⟨taken + 1, [], none⟩)) := by
            simp only [next, hcut, hempty]
            rfl
          exact .line hnext (.done rfl)

/-- **A stream gives its lines**, and then ends or fails as it does. -/
theorem gives_ofStream (stream : Stream) : (ofStream stream).Gives stream.lines stream.failure := by
  have hlater : stream.lines.map (Line.later 0) = stream.lines :=
    (List.map_congr_left fun line _ => by simp [Line.later]).trans (List.map_id _)
  have h := gives (ofStream stream)
  rw [ofStream, hlater] at h
  exact h

/-- **Bytes give their lines and nothing else**, and then they are at their end. -/
theorem gives_ofBytes_iff {bytes : List UInt8} {taken : List Line}
    {failure : Option StreamFault} :
    (ofStream (.ofBytes bytes)).Gives taken failure ↔ taken = lines bytes ∧ failure = none := by
  constructor
  · exact fun h => h.unique (gives_ofStream (.ofBytes bytes))
  · rintro ⟨rfl, rfl⟩
    exact gives_ofStream (.ofBytes bytes)

end Supply

end BenchReport.Text
