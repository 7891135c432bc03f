import Mathlib
import BenchReport.Proofs.Report.Tally
import BenchReport.Proofs.ResultLine.Render
import BenchReport.Proofs.Text.Line
import BenchReport.Report.SingleLine

/-!
# A report that was written is read back

A report is written line by line (`BenchReport.SingleLine.reportText`), and it is read
as bytes that are cut at newlines. On the way back a line is first tried as a fact and
as a footnote; a result is neither, since its slash stands before any colon
(`BenchReport.SingleLine.readFact?_eq_none`) and its first character belongs to a name
(`BenchReport.SingleLine.readFootnote?_eq_none`).

What is lost on the way is a carriage return that a margin ended in, and blanks at the
end of a margin: nothing that is read (`BenchReport.SingleLine.read_of_append`). So every
line gives the measurement that was printed, and nothing else is in the report.
-/

namespace BenchReport.SingleLine

open ResultLine

/-! ### Writing a report -/

/-- What is written at the end of a line. -/
inductive LineEnd where
  /-- A newline. -/
  | lf
  /-- A carriage return and a newline. -/
  | crlf

namespace LineEnd

/-- The part of a line's end that is no newline. -/
def returns : LineEnd → List Char
  | lf => []
  | crlf => ['\r']

/-- The characters at the end of a line. -/
def text (ending : LineEnd) : String := String.ofList (ending.returns ++ ['\n'])

theorem newline_notMem_returns (ending : LineEnd) : '\n' ∉ ending.returns := by
  cases ending <;> decide

/-- **A text comes back less carriage returns at its end**, however its line ends. -/
theorem exists_lost (ending : LineEnd) (s : List Char) :
    ∃ lost, s = Text.decodeLossy
        (Text.dropReturn ((s ++ ending.returns).flatMap String.utf8EncodeChar)) ++ lost ∧
      ∀ c ∈ lost, c = '\r' := by
  cases ending with
  | lf =>
    rw [returns, List.append_nil]
    exact Text.exists_decodeLossy_dropReturn s
  | crlf =>
    rw [returns, Text.decodeLossy_dropReturn_concat]
    exact ⟨[], (List.append_nil s).symm, by simp⟩

end LineEnd

/-- A text of lines that are ended one by one. -/
def endedText (lines : List (String × LineEnd)) : String :=
  String.join (lines.map fun l => l.1 ++ l.2.text)

theorem toList_endedText (lines : List (String × LineEnd)) :
    (endedText lines).toList =
      (lines.map fun l => l.1.toList ++ l.2.returns).flatMap (· ++ ['\n']) := by
  rw [endedText]
  induction lines with
  | nil => rfl
  | cons l lines ih =>
    rw [List.map_cons, String.join_cons, String.toList_append, ih]
    simp [LineEnd.text]

/-- **The lines of a text come back one by one**, each less the end that was written. -/
theorem map_text_lines_endedText {lines : List (String × LineEnd)}
    (h : ∀ l ∈ lines, '\n' ∉ l.1.toList) :
    (Text.lines (Text.encode (endedText lines))).map Text.Line.text =
      lines.map fun l => Text.decodeLossy
        (Text.dropReturn ((l.1.toList ++ l.2.returns).flatMap String.utf8EncodeChar)) := by
  have hlines : ∀ s ∈ lines.map fun l => l.1.toList ++ l.2.returns, '\n' ∉ s := by
    intro s hs hmem
    obtain ⟨l, hl, rfl⟩ := List.mem_map.mp hs
    rcases List.mem_append.mp hmem with hmem | hmem
    · exact h l hl hmem
    · exact l.2.newline_notMem_returns hmem
  rw [Text.encode_eq, toList_endedText, Text.map_text_lines_ended hlines, List.map_map]
  rfl

/-- The text of a report with the given lines. -/
def reportText (lines : List (Entry × LineEnd)) : String :=
  String.join (lines.map fun l => l.1.line.render ++ l.2.text)

/-- What is recorded of a line. -/
structure Recorded (e : Entry) (m : Measurement) : Prop where
  name : m.name = e.name
  parameters : m.parameters = e.parameters
  shape : ∃ latency, readDuration e.layout.duration = .ok latency ∧
    m.shape = e.layout.shape latency

/-! ### A result is neither a fact nor a footnote -/

/-- A text of the form of a result has a slash before its first colon. -/
theorem slash_mem_of_cutAt? {t key rest : List Char} (f : Form t)
    (h : Text.cutAt? (· = ':') t = some (key, rest)) : '/' ∈ key := by
  obtain ⟨c, hcut, hc, -⟩ := Text.cutAt?_eq_some_iff.mp h
  obtain rfl : c = ':' := by simpa using hc
  have hname : ':' ∉ f.name := fun hmem => absurd (f.name_chars _ hmem) (by decide)
  have hsplit := f.eq.symm.trans hcut
  rw [List.append_eq_append_iff] at hsplit
  rcases hsplit with ⟨tail, rfl, hrest⟩ | ⟨tail, heq, hrest⟩
  · cases tail with
    | nil => cases hrest
    | cons d tail =>
      obtain ⟨rfl, -⟩ := List.cons.inj hrest
      simp
  · cases tail with
    | nil => cases hrest
    | cons d tail =>
      obtain ⟨rfl, -⟩ := List.cons.inj hrest
      exact absurd (by simp [heq]) hname

/-- **A result states no fact.** -/
theorem readFact?_eq_none {t : List Char} (f : Form t) : readFact? t = none := by
  have hkeys : ∀ key ∈ factKeys, '/' ∉ key.toList := by decide
  rw [readFact?]
  cases hcut : Text.cutAt? (fun c => decide (c = ':')) t with
  | none => rfl
  | some cut =>
    obtain ⟨key, rest⟩ := cut
    have hslash := slash_mem_of_cutAt? f hcut
    have hkey : String.ofList key ∉ factKeys := fun hmem =>
      hkeys _ hmem (by rwa [String.toList_ofList])
    simp [hkey]

/-- **A result is no footnote.** -/
theorem readFootnote?_eq_none {t : List Char} (f : Form t) : readFootnote? t = none := by
  obtain ⟨c, name, hname⟩ := List.exists_cons_of_ne_nil f.name_ne
  have hc : isNameChar c = true := f.name_chars c (by simp [hname])
  have hmark : isFootnoteMark c = false := by
    have hcode := code_of_isNameChar hc
    simp only [isFootnoteMark, Bool.or_eq_false_iff, Bool.and_eq_false_iff,
      decide_eq_false_iff_not]
    omega
  rw [f.eq, hname, List.cons_append, readFootnote?, hmark]
  rfl

/-! ### One line -/

theorem token_trim (start : Option String) (s : List Char) :
    token start (Text.trim s) = token start s := by
  rw [token, token, Text.trim_trim]

/-- **A printed line is read as its measurement**, even when carriage returns at its end
are lost. -/
theorem read_of_append {options : ReadOptions} (hstart : options.nameStart = none) {e : Entry}
    (hlength : (Text.encode e.line.render).length ≤ options.limits.maxLineLength)
    {line : Text.Line} {lost : List Char} (htext : e.line.render.toList = line.text ++ lost)
    (hlost : ∀ c ∈ lost, c = '\r') :
    ∃ m, read options line = .result m ∧ Recorded e m := by
  have hshort : line.length ≤ options.limits.maxLineLength := by
    rw [Text.encode_eq, htext, List.flatMap_append, List.length_append] at hlength
    rw [Text.Line.length, Text.byteCount_eq]
    omega
  have htrim : Text.trim line.text = Text.trim e.line.render.toList := by
    have hblank : ∀ c ∈ lost, Text.isBlank c = true := by
      intro c hc
      rw [hlost c hc]
      decide
    rw [htext, Text.trim_append_blanks line.text hblank]
  obtain ⟨latency, hlatency⟩ := Layout.exists_readDuration e.layout_proper
  have hmeasurement : measurement none (Text.trim e.line.render.toList) =
      .ok (some ⟨e.name, e.parameters, e.layout.shape latency, e.nodup_keys⟩) := by
    rw [measurement, token_trim, ← measurement, e.measurement_render hlatency]
  refine ⟨⟨e.name, e.parameters, e.layout.shape latency, e.nodup_keys⟩, ?_, rfl, rfl, latency,
    hlatency, rfl⟩
  rw [read, if_neg (Nat.not_lt.mpr hshort)]
  simp only [hstart, hmeasurement, htrim, readFact?_eq_none e.form, readFootnote?_eq_none e.form]

/-! ### All lines -/

/-- The text of a line and what stands before its newline. -/
def bytesOf (l : Entry × LineEnd) : List UInt8 :=
  (l.1.line.render.toList ++ l.2.returns).flatMap String.utf8EncodeChar

/-- **The lines of a report come back one by one**, each less the end that was written. -/
theorem map_text_lines_reportText (lines : List (Entry × LineEnd)) :
    (Text.lines (Text.encode (reportText lines))).map Text.Line.text =
      lines.map fun l => Text.decodeLossy (Text.dropReturn (bytesOf l)) := by
  have hended : reportText lines = endedText (lines.map fun l => (l.1.line.render, l.2)) := by
    rw [reportText, endedText, List.map_map]
    rfl
  have hlines : ∀ l ∈ lines.map fun l => (l.1.line.render, l.2), '\n' ∉ l.1.toList := by
    intro l hl
    obtain ⟨l, -, rfl⟩ := List.mem_map.mp hl
    exact l.1.newline_notMem_render
  rw [hended, map_text_lines_endedText hlines, List.map_map]
  rfl

/-- **Every line of a report is read as the measurement that was printed on it.** -/
theorem forall₂_read_reportText {options : ReadOptions} (hstart : options.nameStart = none)
    {lines : List (Entry × LineEnd)}
    (hlength : ∀ l ∈ lines,
      (Text.encode l.1.line.render).length ≤ options.limits.maxLineLength) :
    List.Forall₂ (fun l line => ∃ m, read options line = .result m ∧ Recorded l.1 m) lines
      (Text.lines (Text.encode (reportText lines))) := by
  have hsame : List.Forall₂ Eq
      (lines.map fun l => Text.decodeLossy (Text.dropReturn (bytesOf l)))
      ((Text.lines (Text.encode (reportText lines))).map Text.Line.text) := by
    rw [List.forall₂_eq_eq_eq, map_text_lines_reportText]
  rw [List.forall₂_map_left_iff, List.forall₂_map_right_iff] at hsame
  refine ((List.forall₂_and_left _ _).mpr ⟨hlength, hsame⟩).imp ?_
  rintro l line ⟨hshort, htext⟩
  obtain ⟨lost, hline, hlost⟩ := l.2.exists_lost l.1.line.render.toList
  exact read_of_append hstart hshort (htext ▸ hline) hlost

/-- The report of lines that all are results. -/
theorem ofReadings_map_result (ms : List Measurement) :
    ofReadings (ms.map .result) =
      ⟨none, ms, [], [], ⟨ms.length, ms.length, 0, 0, 0, 0⟩⟩ := by
  have htally : Tally.sum ((ms.map Reading.result).map Reading.tally) =
      ⟨ms.length, ms.length, 0, 0, 0, 0⟩ := by
    have hconst : (ms.map Reading.result).map Reading.tally =
        List.replicate ms.length ⟨1, 1, 0, 0, 0, 0⟩ := by
      rw [List.map_map, ← List.map_const']
      rfl
    rw [Tally.sum_eq, hconst, List.sum_replicate, Tally.nsmul_def]
    simp
  rw [ofReadings, htally]
  simp [List.filterMap_map, Function.comp_def, Reading.measurement?, Reading.fact?,
    Reading.footnote?]
  rfl

/-- Lines that are results one by one are results together. -/
theorem exists_measurements {options : ReadOptions} {entries : List Entry}
    {lines : List Text.Line}
    (h : List.Forall₂ (fun e line => ∃ m, read options line = .result m ∧ Recorded e m)
      entries lines) :
    ∃ ms, lines.map (read options) = ms.map .result ∧ List.Forall₂ Recorded entries ms := by
  induction h with
  | nil => exact ⟨[], rfl, .nil⟩
  | cons hline _ ih =>
    obtain ⟨m, hread, hm⟩ := hline
    obtain ⟨ms, hms, hrecorded⟩ := ih
    exact ⟨m :: ms, by rw [List.map_cons, hread, hms, List.map_cons], .cons hm hrecorded⟩

/-- **A report that was written is read back**: every line gives one measurement, with the
name, the parameters and the shape that were printed, and nothing else is found. -/
theorem reportText_is_read_back (options : ReadOptions) (hstart : options.nameStart = none)
    (lines : List (Entry × LineEnd))
    (hlength : ∀ l ∈ lines,
      (Text.encode l.1.line.render).length ≤ options.limits.maxLineLength) :
    ∃ report, ofStream options (.ofBytes (Text.encode (reportText lines))) = .ok report ∧
      List.Forall₂ Recorded (lines.map Prod.fst) report.measurements ∧
      report.metadata = [] ∧ report.footnotes = [] ∧
      report.tally = ⟨lines.length, lines.length, 0, 0, 0, 0⟩ := by
  obtain ⟨ms, hms, hrecorded⟩ :=
    exists_measurements (List.forall₂_map_left_iff.mpr (forall₂_read_reportText hstart hlength))
  have hcount : ms.length = lines.length := by simpa using hrecorded.length_eq.symm
  refine ⟨ofLines options (Text.lines (Text.encode (reportText lines))), rfl, ?_⟩
  rw [ofLines, hms, ofReadings_map_result, hcount]
  exact ⟨hrecorded, rfl, rfl, rfl⟩

/-- A line with a hyphen, a slash and a colon in its keys, and a margin that ends in a
carriage return. -/
def timedEntry : Entry where
  name := "KllLatency"
  parameters := [⟨"Rate/s-1", -3⟩, ⟨"a:", 5⟩]
  procs := 4
  layout := .timing "924.4m"
  margin := some "14% ± -2\r"
  name_ne := by decide +kernel
  name_chars := List.all_eq_true.mp (by decide +kernel)
  parameters_ne := by simp
  keys := by decide +kernel
  nodup_keys := by decide +kernel
  layout_proper := .timing (by simp [Text.isBlank]) ⟨_, rfl⟩
  margin_line := by decide +kernel

/-- A line of the memory statistics, its parameter the least of all values. -/
def detailedEntry : Entry where
  name := "BenchmarkSystemCount"
  parameters := [⟨"Clients", -9223372036854775808⟩]
  procs := 14
  layout := .detailed 1 "8342760500" "ns" 179960240 2156157
  margin := none
  name_ne := by decide +kernel
  name_chars := List.all_eq_true.mp (by decide +kernel)
  parameters_ne := by simp
  keys := by decide +kernel
  nodup_keys := by decide +kernel
  layout_proper :=
    .detailed (.whole (by decide +kernel) (List.all_eq_true.mp (by decide +kernel)))
      (by decide +kernel) (by decide +kernel)
  margin_line := by decide +kernel

/-- Two lines with different ends, read back together. -/
theorem two_lines_are_read_back :
    ∃ report, ofStream ⟨.default, none⟩
        (.ofBytes (Text.encode (reportText [(timedEntry, .lf), (detailedEntry, .crlf)]))) =
          .ok report ∧
      List.Forall₂ Recorded [timedEntry, detailedEntry] report.measurements ∧
      report.metadata = [] ∧ report.footnotes = [] ∧ report.tally = ⟨2, 2, 0, 0, 0, 0⟩ :=
  reportText_is_read_back ⟨.default, none⟩ rfl [(timedEntry, .lf), (detailedEntry, .crlf)] (by
    simp only [List.forall_mem_cons, List.not_mem_nil, false_imp_iff, implies_true, and_true]
    exact ⟨by decide +kernel, by decide +kernel⟩)

end BenchReport.SingleLine
