import Mathlib
import BenchReport.Proofs.Report.RoundTrip
import BenchReport.Proofs.Text.Supply

/-!
# Lines are taken as they were written

A stream is written line by line (`BenchReport.Text.writtenBytes`): each text is followed by
one of the two line ends, and behind the last end there may stand a text that is not ended.
Two things could be lost of a text. A newline in it would end it early, and a carriage return
at its end would go with the newline; a `BenchReport.Text.LineText` has neither. Everything
else survives, whatever characters it is made of, since the cut falls between characters and
never into one (`BenchReport.Text.lineBytes_writtenBytes`).

Of bytes that nobody wrote as a text less is known, but a newline is a newline in them too.
What stands behind it is cut by itself (`BenchReport.Text.lines_append`), so that a damaged
line is the only one to show the damage (`BenchReport.Text.lines_append_newline_append`).

All this is said of the lines that a stream has. A reader asks for them one at a time, and
what comes of asking is determined (`BenchReport.Text.Supply.Gives.unique`): the lines in
order, and then the end of the stream.
-/

namespace BenchReport.Text

open SingleLine (LineEnd endedText)

/-! ### Writing lines -/

/-- A text that is one line whichever end is put behind it. -/
structure LineText where
  /-- The text. -/
  text : String
  /-- No newline ends it early. -/
  newline_notMem : '\n' ∉ text.toList
  /-- Nothing at its end goes with a newline. -/
  getLast?_ne : text.toList.getLast? ≠ some '\r'

/-- The bytes of texts that are ended one by one, with a text behind them that is not. -/
def writtenBytes (ended : List (LineText × LineEnd)) (rest : LineText) : List UInt8 :=
  encode (endedText (ended.map fun l => (l.1.text, l.2)) ++ rest.text)

/-- The texts that were written. What stands behind the last end is one if there is any. -/
def writtenTexts (ended : List (LineText × LineEnd)) (rest : LineText) : List LineText :=
  ended.map Prod.fst ++ if rest.text.isEmpty then [] else [rest]

/-- Lines with the given texts, numbered from one. -/
def numberedTexts (texts : List LineText) : List Line :=
  (texts.zipIdx 1).map fun entry => ⟨entry.2, entry.1.text.toList⟩

theorem decodeLossy_encode (s : String) : decodeLossy (encode s) = s.toList := by
  rw [encode_eq, decodeLossy_flatMap]

theorem isEmpty_encode (s : String) : (encode s).isEmpty = s.isEmpty := by
  rw [Bool.eq_iff_iff, List.isEmpty_iff, String.isEmpty_iff, encode_eq, List.flatMap_eq_nil_iff]
  constructor
  · intro hnil
    refine String.toList_eq_nil_iff.mp (List.eq_nil_iff_forall_not_mem.mpr fun c hc => ?_)
    exact String.utf8EncodeChar_ne_nil (hnil c hc)
  · rintro rfl
    simp

theorem numberedTexts_eq (texts : List LineText) :
    numberedTexts texts = numbered (texts.map fun t => encode t.text) := by
  rw [numberedTexts, numbered, List.zipIdx_map, List.map_map]
  refine List.map_congr_left fun entry _ => ?_
  simp [decodeLossy_encode]

namespace LineText

/-- The bytes of a text and of what stands before its newline. -/
def endedBytes (l : LineText × LineEnd) : List UInt8 :=
  (l.1.text.toList ++ l.2.returns).flatMap String.utf8EncodeChar

theorem newline_notMem_endedBytes (l : LineText × LineEnd) : newline ∉ endedBytes l := by
  intro hmem
  rcases List.mem_append.mp (mem_of_mem_flatMap (by decide) hmem) with h | h
  · exact l.1.newline_notMem h
  · exact l.2.newline_notMem_returns h

theorem newline_notMem_encode (t : LineText) : newline ∉ encode t.text := by
  rw [encode_eq]
  exact fun hmem => t.newline_notMem (mem_of_mem_flatMap (by decide) hmem)

/-- **A newline takes of a written line what belongs to the line's end**, and no more. -/
theorem dropReturn_endedBytes (l : LineText × LineEnd) :
    dropReturn (endedBytes l) = encode l.1.text := by
  obtain ⟨t, ending⟩ := l
  rw [endedBytes, encode_eq]
  cases ending with
  | lf =>
    rw [LineEnd.returns, List.append_nil]
    exact dropReturn_eq_self fun h => t.getLast?_ne (getLast?_of_flatMap h)
  | crlf =>
    have hreturn : String.utf8EncodeChar '\r' = [13] := by decide
    rw [LineEnd.returns, List.flatMap_append, List.flatMap_singleton, hreturn, dropReturn_concat]

end LineText

theorem writtenBytes_eq (ended : List (LineText × LineEnd)) (rest : LineText) :
    writtenBytes ended rest =
      (ended.map LineText.endedBytes).flatMap (· ++ [newline]) ++ encode rest.text := by
  have hnewline : String.utf8EncodeChar '\n' = [newline] := by decide
  rw [writtenBytes, encode_eq, encode_eq, String.toList_append, SingleLine.toList_endedText,
    List.flatMap_append, List.map_map, List.flatMap_assoc, List.flatMap_map, List.flatMap_map]
  congr 1
  refine List.flatMap_congr fun l _ => ?_
  rw [List.flatMap_append, List.flatMap_singleton, hnewline]
  rfl

/-- **The bytes of each line are those of its text.** -/
theorem lineBytes_writtenBytes (ended : List (LineText × LineEnd)) (rest : LineText) :
    lineBytes (writtenBytes ended rest) =
      (writtenTexts ended rest).map fun t => encode t.text := by
  have hended : ∀ line ∈ ended.map LineText.endedBytes, newline ∉ line := by
    intro line hline
    obtain ⟨l, -, rfl⟩ := List.mem_map.mp hline
    exact LineText.newline_notMem_endedBytes l
  have htexts : (ended.map LineText.endedBytes).map dropReturn =
      (ended.map Prod.fst).map fun t => encode t.text := by
    rw [List.map_map, List.map_map]
    exact List.map_congr_left fun l _ => LineText.dropReturn_endedBytes l
  rw [writtenBytes_eq, lineBytes_flatMap hended, htexts,
    lineBytes_of_notMem rest.newline_notMem_encode, writtenTexts, List.map_append]
  congr 1
  rw [isEmpty_encode]
  split <;> rfl

/-- **A stream that was written has the lines that were written**, numbered from one. -/
theorem lines_writtenBytes (ended : List (LineText × LineEnd)) (rest : LineText) :
    lines (writtenBytes ended rest) = numberedTexts (writtenTexts ended rest) := by
  rw [lines, lineBytes_writtenBytes, numberedTexts_eq]

/-! ### Damaged lines -/

theorem length_lines (bytes : List UInt8) : (lines bytes).length = (lineBytes bytes).length := by
  rw [lines, numbered, List.length_map, List.length_zipIdx]

/-- **A line between two others is read by itself**: its bytes decide its own text, and
neither the texts nor the numbers of the others. -/
theorem lines_append_newline_append {a : List UInt8} (ha : a = [] ∨ a.getLast? = some newline)
    {line : List UInt8} (hline : newline ∉ line) (b : List UInt8) :
    lines (a ++ line ++ newline :: b) =
      lines a ++ ⟨(lines a).length + 1, decodeLossy (dropReturn line)⟩ ::
        (lines b).map (Line.later ((lines a).length + 1)) := by
  have hfirst : lines (line ++ newline :: b) =
      ⟨1, decodeLossy (dropReturn line)⟩ :: (lines b).map (Line.later 1) :=
    @Stream.lines_append_newline line none hline b
  rw [List.append_assoc, lines_append ha, length_lines, hfirst, List.map_cons, List.map_map]
  congr 2
  exact List.map_congr_left fun l _ => later_later 1 _ l

/-! ### Taking lines off a stream -/

/-- **Lines are taken as they were written.** Asking for the lines of any bytes gives the
lines that they are cut into, and then the end. Of texts that were written these are the
texts, numbered from one. Bytes that end in a newline are cut by themselves, whatever stands
behind them, so that the bytes of a line decide no other line. -/
theorem lines_are_taken_as_written :
    (∀ (bytes : List UInt8) (taken : List Line) (failure : Option StreamFault),
      (Supply.ofStream (.ofBytes bytes)).Gives taken failure ↔
        taken = lines bytes ∧ failure = none) ∧
    (∀ (ended : List (LineText × LineEnd)) (rest : LineText),
      lines (writtenBytes ended rest) = numberedTexts (writtenTexts ended rest)) ∧
    (∀ a b : List UInt8, a.getLast? = some newline →
      lines (a ++ b) = lines a ++ (lines b).map (Line.later (lines a).length)) ∧
    (∀ a line b : List UInt8, (a = [] ∨ a.getLast? = some newline) → newline ∉ line →
      lines (a ++ line ++ newline :: b) =
        lines a ++ ⟨(lines a).length + 1, decodeLossy (dropReturn line)⟩ ::
          (lines b).map (Line.later ((lines a).length + 1))) := by
  refine ⟨fun bytes taken failure => Supply.gives_ofBytes_iff, lines_writtenBytes,
    fun a b ha => ?_, fun a line b ha hline => lines_append_newline_append ha hline b⟩
  rw [length_lines]
  exact lines_append (.inr ha) b

/-- Both line ends and an empty line, and then a character that is cut off at the end of its
line, with a line on either side of it. -/
theorem lines_are_taken_beside_cut_character :
    lines (writtenBytes [(⟨"µ", by decide, by decide⟩, .crlf), (⟨"", by decide, by decide⟩, .lf)]
        ⟨"b", by decide, by decide⟩) = [⟨1, ['µ']⟩, ⟨2, []⟩, ⟨3, ['b']⟩] ∧
      lines ([0x61, 10] ++ [0x62]) = [⟨1, ['a']⟩, ⟨2, ['b']⟩] ∧
      lines ([0x61, 10] ++ [0xe2, 0x82] ++ newline :: [0x62]) =
        [⟨1, ['a']⟩, ⟨2, [replacementChar]⟩, ⟨3, ['b']⟩] := by
  obtain ⟨-, hwritten, happend, hdamaged⟩ := lines_are_taken_as_written
  have hcut : newline ∉ ([0xe2, 0x82] : List UInt8) := by decide
  exact ⟨hwritten _ _, happend _ _ rfl, hdamaged [0x61, 10] [0xe2, 0x82] [0x62] (.inr rfl) hcut⟩

end BenchReport.Text
