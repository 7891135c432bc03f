import Mathlib
import BenchReport.Proofs.Duration
import BenchReport.Proofs.Measurement
import BenchReport.Proofs.ResultLine.Written

/-!
# Lines that a benchmark prints

A line that a benchmark prints is a `BenchReport.ResultLine.Entry`. It is one of those lines
that are read as they are written (`BenchReport.ResultLine.Written.token_render`), and this
file adds what is special to it, the layouts of its fields:

* the words are gathered into what was printed, a unit of time behind its number
  (`BenchReport.ResultLine.Layout.areFields`);
* the fields have the shape that they were printed from
  (`BenchReport.ResultLine.Layout.readShape_gathered`).
-/

namespace BenchReport

namespace ResultLine

/-! ### What is printed -/

/-- What the fields of a line are printed from. -/
inductive Layout where
  /-- One timing, as it is printed. -/
  | timing (token : String)
  /-- The memory statistics, the time as a number and a unit. -/
  | detailed (iterations : UInt64) (number unit : String) (bytes allocs : UInt64)

namespace Layout

/-- The fields as they are printed. -/
def fields : Layout → List String
  | timing token => [token]
  | detailed iterations number unit bytes allocs =>
    [Text.showUnsigned iterations, number ++ " " ++ unit ++ "/op",
      Text.showUnsigned bytes ++ " B/op", Text.showUnsigned allocs ++ " allocs/op"]

/-- The token that states the latency. -/
def duration : Layout → List Char
  | timing token => token.toList
  | detailed _ number unit _ _ => number.toList ++ unit.toList

/-- The shape with a given latency. -/
def shape (latency : Float) : Layout → Shape
  | timing _ => .simple latency
  | detailed iterations _ _ bytes allocs => .detailed iterations latency bytes allocs

/-- A layout that comes back as it is printed: its time must be one. -/
inductive IsProper : Layout → Prop
  | timing {token : String} (solid : ∀ c ∈ token.toList, Text.isBlank c = false)
      (read : ∃ latency, readDuration token.toList = .ok latency) : IsProper (.timing token)
  | detailed {iterations bytes allocs : UInt64} {number unit : String}
      (number_plain : Decimal.IsPlain number.toList) (unit_ne : unit.toList ≠ [])
      (unit_known : (TimeUnit.ofSuffix? unit.toList).isSome) :
      IsProper (.detailed iterations number unit bytes allocs)

end Layout

/-- **A line as a benchmark prints it.** -/
structure Entry where
  /-- The benchmark's name. -/
  name : String
  /-- Its parameters. -/
  parameters : List Parameter
  /-- The number of processors. -/
  procs : UInt32
  /-- The fields. -/
  layout : Layout
  /-- The error margin, if one is printed. -/
  margin : Option String
  name_ne : name.toList ≠ []
  name_chars : ∀ c ∈ name.toList, isNameChar c = true
  parameters_ne : parameters ≠ []
  keys : ∀ p ∈ parameters, IsKey p.key.toList
  nodup_keys : (parameters.map Parameter.key).Nodup
  layout_proper : layout.IsProper
  margin_line : ∀ m ∈ margin, '\n' ∉ m.toList

/-- The line of an entry. -/
def Entry.line (e : Entry) : ResultLine :=
  ⟨e.name, e.parameters, e.procs, e.layout.fields, e.margin⟩

/-! ### Fields -/

namespace Layout

/-- A unit of something for each operation. -/
def perOp (unit : List Char) : List Char := unit ++ ['/', 'o', 'p']

/-- The words of the fields. -/
def words : Layout → List (List Char)
  | timing token => [token.toList]
  | detailed iterations number unit bytes allocs =>
    [(Text.showUnsigned iterations).toList, number.toList, perOp unit.toList,
      (Text.showUnsigned bytes).toList, perOp ['B'], (Text.showUnsigned allocs).toList,
      perOp ['a', 'l', 'l', 'o', 'c', 's']]

/-- The fields as they are gathered, the unit of time behind its number. -/
def gathered (l : Layout) : List (List Char) :=
  match l with
  | timing _ => [l.duration]
  | detailed iterations _ _ bytes allocs =>
    [(Text.showUnsigned iterations).toList, l.duration, (Text.showUnsigned bytes).toList,
      (Text.showUnsigned allocs).toList]

/-- Fields set side by side are their words set side by side. -/
theorem intercalate_fields (l : Layout) :
    [' '].intercalate (l.fields.map String.toList) = [' '].intercalate l.words := by
  cases l <;> simp [fields, words, perOp, List.intercalate_cons_cons]

/-- A character of a timing token is neither a slash nor the margin sign. -/
theorem ne_of_isTimingChar {c : Char} (h : IsTimingChar c) : c ≠ '/' ∧ c ≠ marginSign := by
  have hslash : '/'.toNat = 0x2f := rfl
  have hsign : marginSign.toNat = 0xb1 := rfl
  rw [IsTimingChar, isNumberChar_eq_true_iff, TimeUnit.IsSuffixChar] at h
  constructor
  · rintro rfl
    omega
  · rintro rfl
    omega

/-- A count is printed with digits. -/
theorem isDigits_showUnsigned (n : UInt64) : Text.IsDigits (Text.showUnsigned n).toList := by
  rw [Text.showUnsigned, Nat.toList_repr]
  exact Text.isDigits_toDigits _

theorem isTimingChar_showUnsigned (n : UInt64) :
    ∀ c ∈ (Text.showUnsigned n).toList, IsTimingChar c := by
  intro c hc
  refine .inl ?_
  rw [isNumberChar, (isDigits_showUnsigned n).2 c hc]
  rfl

/-- A text of timing characters is a word before the margin. -/
theorem isWord_of_isTimingChar {w : List Char} (hne : w ≠ []) (h : ∀ c ∈ w, IsTimingChar c) :
    Text.IsWord w ∧ marginSign ∉ w :=
  ⟨⟨hne, fun c hc => (h c hc).isBlank⟩, fun hmem => (ne_of_isTimingChar (h _ hmem)).2 rfl⟩

theorem isWord_perOp {unit : List Char} (hunit : ∀ c ∈ unit, Text.isBlank c = false)
    (hsign : marginSign ∉ unit) : Text.IsWord (perOp unit) ∧ marginSign ∉ perOp unit := by
  have hop : (∀ c ∈ ['/', 'o', 'p'], Text.isBlank c = false) ∧ marginSign ∉ ['/', 'o', 'p'] :=
    ⟨by simp [Text.isBlank], by decide⟩
  refine ⟨⟨by simp [perOp], fun c hc => ?_⟩, fun hmem => ?_⟩
  · exact (List.mem_append.mp hc).elim (hunit c) (hop.1 c)
  · exact (List.mem_append.mp hmem).elim hsign hop.2

/-- What stands before the slash is added to the field if it is a unit of time. -/
theorem timeSuffix_perOp {unit : List Char} (hunit : '/' ∉ unit) :
    timeSuffix (perOp unit) =
      if unit ≠ [] ∧ (TimeUnit.ofSuffix? unit).isSome then unit else [] := by
  have htake : (perOp unit).takeWhile (fun c => decide (c ≠ '/')) = unit := by
    refine Text.takeWhile_append_stop (fun c hc => ?_) (by simp)
    rw [decide_eq_true_eq]
    rintro rfl
    exact hunit hc
  rw [timeSuffix, htake]

/-- The words of a proper layout are words, and the margin does not begin in them. -/
theorem isWord_of_mem_words {l : Layout} (h : l.IsProper) {w : List Char} (hw : w ∈ l.words) :
    Text.IsWord w ∧ marginSign ∉ w := by
  have hcount : ∀ n : UInt64, Text.IsWord (Text.showUnsigned n).toList ∧
      marginSign ∉ (Text.showUnsigned n).toList := fun n =>
    isWord_of_isTimingChar (isDigits_showUnsigned n).1 (isTimingChar_showUnsigned n)
  cases h with
  | @timing token solid read =>
    obtain ⟨latency, hread⟩ := read
    obtain ⟨hne, hchars⟩ := isTimingChar_of_readDuration solid hread
    obtain rfl : w = token.toList := by simpa [words] using hw
    exact isWord_of_isTimingChar hne hchars
  | @detailed iterations bytes allocs number unit number_plain unit_ne unit_known =>
    obtain ⟨u, hu⟩ := Option.isSome_iff_exists.mp unit_known
    have hunit := isWord_of_isTimingChar unit_ne fun c hc =>
      .inr (TimeUnit.isSuffixChar_of_ofSuffix? hu c hc)
    simp only [words, List.mem_cons, List.not_mem_nil, or_false] at hw
    rcases hw with rfl | rfl | rfl | rfl | rfl | rfl | rfl
    · exact hcount iterations
    · exact isWord_of_isTimingChar number_plain.ne_nil fun c hc => .inl (number_plain.chars c hc)
    · exact isWord_perOp hunit.1.2 hunit.2
    · exact hcount bytes
    · exact isWord_perOp (by simp [Text.isBlank]) (by decide)
    · exact hcount allocs
    · exact isWord_perOp (by simp [Text.isBlank]) (by decide)

/-- **The words of the fields are gathered into the fields.** -/
theorem areFields {l : Layout} (h : l.IsProper) : AreFields l.words l.gathered := by
  cases h with
  | @timing token solid read =>
    exact ⟨[⟨token.toList, []⟩], by simp [words, Printed.words], by simp, by simp,
      by simp [gathered, duration, Printed.field]⟩
  | @detailed iterations bytes allocs number unit number_plain unit_ne unit_known =>
    have hcount : ∀ n : UInt64, '/' ∉ (Text.showUnsigned n).toList := fun n hmem =>
      (ne_of_isTimingChar (isTimingChar_showUnsigned n _ hmem)).1 rfl
    have hnumber : '/' ∉ number.toList := fun hmem =>
      (ne_of_isTimingChar (.inl (number_plain.chars _ hmem))).1 rfl
    obtain ⟨u, hu⟩ := Option.isSome_iff_exists.mp unit_known
    have hunit : '/' ∉ unit.toList := fun hmem =>
      (ne_of_isTimingChar (.inr (TimeUnit.isSuffixChar_of_ofSuffix? hu _ hmem))).1 rfl
    have htime : timeSuffix (perOp unit.toList) = unit.toList := by
      rw [timeSuffix_perOp hunit, if_pos ⟨unit_ne, unit_known⟩]
    have hbytes : timeSuffix (perOp ['B']) = [] := by decide
    have hallocs : timeSuffix (perOp ['a', 'l', 'l', 'o', 'c', 's']) = [] := by decide
    refine ⟨[⟨(Text.showUnsigned iterations).toList, []⟩,
      ⟨number.toList, [perOp unit.toList]⟩,
      ⟨(Text.showUnsigned bytes).toList, [perOp ['B']]⟩,
      ⟨(Text.showUnsigned allocs).toList, [perOp ['a', 'l', 'l', 'o', 'c', 's']]⟩],
      ?_, ?_, ?_, ?_⟩
    · simp [words, Printed.words]
    · simp [perOp]
    · simpa using ⟨hnumber, hcount bytes, hcount allocs⟩
    · simp only [List.map_cons, List.map_nil, Printed.field, List.flatMap_cons, List.flatMap_nil,
        htime, hbytes, hallocs, List.append_nil]
      rfl

/-- A printed count is read as that count. -/
theorem readCount_showUnsigned (n : UInt64) :
    readCount (Text.showUnsigned n).toList = .ok n := by
  have htrim : Text.trim (Text.showUnsigned n).toList = (Text.showUnsigned n).toList :=
    Text.trim_eq_self (Text.isTrimmed_of_forall fun c hc =>
      (isTimingChar_showUnsigned n c hc).isBlank)
  simp [readCount, htrim, Text.readUnsigned_showUnsigned]

/-- **The fields have the shape that they were printed from.** -/
theorem readShape_gathered {l : Layout} {latency : Float}
    (h : readDuration l.duration = .ok latency) :
    readShape (l.gathered.map String.ofList) = .ok (l.shape latency) := by
  cases l with
  | timing token =>
    simp [gathered, readShape, h, shape, Except.map]
  | detailed iterations number unit bytes allocs =>
    simp [gathered, readShape, h, shape, readCount_showUnsigned, bind, Except.bind, pure,
      Except.pure]

/-- A proper layout states a latency. -/
theorem exists_readDuration {l : Layout} (h : l.IsProper) :
    ∃ latency, readDuration l.duration = .ok latency := by
  cases h with
  | timing _ read => exact read
  | detailed number_plain _ unit_known => exact exists_readDuration_append number_plain unit_known

end Layout

/-! ### The line -/

namespace Entry

variable (e : Entry)

/-- A line that a benchmark prints is one that is written in words. -/
def written : Written where
  line := e.line
  words := e.layout.words
  name_ne := e.name_ne
  name_chars := e.name_chars
  parameters_ne := e.parameters_ne
  keys := e.keys
  words_ne := by cases e.layout <;> simp [Layout.words]
  isWord _ hw := Layout.isWord_of_mem_words e.layout_proper hw
  fields_eq := Layout.intercalate_fields e.layout
  margin_line := e.margin_line

/-- A line is printed on one line. -/
theorem newline_notMem_render : '\n' ∉ e.line.render.toList := e.written.newline_notMem_render

/-- **A printed line has the form of a result**, its pieces being what was printed. -/
def form : Form (Text.trim e.line.render.toList) := e.written.form

/-- **A printed line is read as the measurement that was printed.** -/
theorem measurement_render {latency : Float} (h : readDuration e.layout.duration = .ok latency) :
    measurement none e.line.render.toList =
      .ok (some ⟨e.name, e.parameters, e.layout.shape latency, e.nodup_keys⟩) := by
  have htoken : token none e.line.render.toList =
      .ok (some ⟨e.name, e.parameters, e.layout.gathered.map String.ofList⟩) :=
    e.written.token_render (Layout.areFields e.layout_proper)
  rw [measurement, htoken]
  simp only [Token.measurement, Layout.readShape_gathered h,
    Measurement.ofParameters_eq_ok e.nodup_keys]
  rfl

end Entry

end ResultLine

end BenchReport
