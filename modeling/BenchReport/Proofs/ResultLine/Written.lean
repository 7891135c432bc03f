import Mathlib
import BenchReport.Proofs.Measurement
import BenchReport.Proofs.ResultLine.Grammar

/-!
# Lines that are written

`BenchReport.ResultLine.render` writes down whatever it is given, and not everything that
can be written is read back: a key with a comma in it makes two segments. This file says
what has to hold of the parts of a line (`BenchReport.ResultLine.Written`) and follows such
a line through the grammar:

* the hyphens of negative values, and slashes and colons in keys, do not move the cuts
  (`BenchReport.ResultLine.Written.form`);
* the segments are the parameters again (`BenchReport.ResultLine.says_spell`);
* the words before the margin are those of the fields, however the margin goes on
  (`BenchReport.ResultLine.Written.words_form`).

Trimming takes from the margin only (`BenchReport.ResultLine.Written.trim_render`). What
the words are gathered into is left to the caller, since one field may be written as
several words (`BenchReport.ResultLine.Written.token_render`).
-/

namespace BenchReport.ResultLine

/-! ### Keys -/

/-- A key that comes back as it is printed. -/
structure IsKey (key : List Char) : Prop where
  ne : key ≠ []
  solid : ∀ c ∈ key, Text.isBlank c = false
  comma : ',' ∉ key
  first : ¬delimiter <:+: key
  head : ∀ c ∈ key.head?, c ≠ '_'

instance (key : List Char) : Decidable (IsKey key) :=
  decidable_of_iff (key ≠ [] ∧ key.all (fun c => !Text.isBlank c) = true ∧ ',' ∉ key ∧
    ¬delimiter <:+: key ∧ key.head? ≠ some '_')
    ⟨fun ⟨hne, hsolid, hcomma, hfirst, hhead⟩ =>
        ⟨hne, by simpa using hsolid, hcomma, hfirst, by rintro _ hc rfl; exact hhead hc⟩,
      fun h => ⟨h.ne, by simpa using h.solid, h.comma, h.first, fun hc => h.head _ hc rfl⟩⟩

/-! ### Segments -/

/-- A parameter as it is printed. -/
theorem toList_spell (p : Parameter) :
    (p.spell ":_").toList = p.key.toList ++ delimiter ++ (Text.showSigned p.value).toList :=
  p.toList_spell ":_"

/-- A signed number is printed with digits and a hyphen. -/
theorem mem_showSigned {n : Int64} {c : Char} (hc : c ∈ (Text.showSigned n).toList) :
    c = '-' ∨ c.isDigit = true := by
  rw [Text.toList_showSigned] at hc
  rcases List.mem_append.mp hc with hc | hc
  · split at hc
    · exact .inl (by simpa using hc)
    · cases hc
  · exact .inr ((Text.isDigits_toDigits _).2 c hc)

/-- **A printed parameter says that parameter.** -/
theorem says_spell {p : Parameter} (hkey : IsKey p.key.toList) :
    Says (p.spell ":_").toList (some p) := by
  have hsays : Says ([] ++ p.key.toList ++ delimiter ++ (Text.showSigned p.value).toList)
      (some ⟨String.ofList p.key.toList, p.value⟩) :=
    .parameter (by simp) hkey.ne hkey.head hkey.first
      (Text.readSigned_eq_ok_iff.mp (Text.readSigned_showSigned p.value))
  rw [List.nil_append, String.ofList_toList, ← toList_spell] at hsays
  exact hsays

/-- Neither a comma nor a blank is printed inside a segment. -/
theorem spell_chars {p : Parameter} (hkey : IsKey p.key.toList) :
    ∀ c ∈ (p.spell ":_").toList, c ≠ ',' ∧ Text.isBlank c = false := by
  intro c hc
  rw [toList_spell, List.mem_append, List.mem_append] at hc
  rcases hc with (hc | hc) | hc
  · exact ⟨fun h => hkey.comma (h ▸ hc), hkey.solid c hc⟩
  · simp only [delimiter, List.mem_cons, List.not_mem_nil, or_false] at hc
    rcases hc with rfl | rfl <;> decide
  · rcases mem_showSigned hc with rfl | hdigit
    · decide
    · refine ⟨?_, Text.isBlank_of_isDigit hdigit⟩
      rintro rfl
      cases hdigit

/-! ### The line -/

/-- **A line as it is written**, with the words that its fields are made of. -/
structure Written where
  /-- What is written. -/
  line : ResultLine
  /-- The words of its fields. -/
  words : List (List Char)
  name_ne : line.name.toList ≠ []
  name_chars : ∀ c ∈ line.name.toList, isNameChar c = true
  parameters_ne : line.parameters ≠ []
  keys : ∀ p ∈ line.parameters, IsKey p.key.toList
  words_ne : words ≠ []
  isWord : ∀ w ∈ words, Text.IsWord w ∧ marginSign ∉ w
  fields_eq : [' '].intercalate (line.fields.map String.toList) = [' '].intercalate words
  margin_line : ∀ m ∈ line.margin, '\n' ∉ m.toList

namespace Written

variable (w : Written)

/-- The parameter list as it is printed. -/
def parameterText : List Char :=
  [','].intercalate (w.line.parameters.map fun p => (p.spell ":_").toList)

/-- The processor count as it is printed. -/
def procsText : List Char := Nat.toDigits 10 w.line.procs.toNat

/-- The fields as they are printed. -/
def fieldText : List Char := [' '].intercalate w.words

/-- The line as it is printed, up to the margin. -/
def lineText (behind : List Char) : List Char :=
  w.line.name.toList ++ '/' :: (w.parameterText ++ '-' ::
    (w.procsText ++ ([' '] ++ (w.fieldText ++ behind))))

/-- The margin as it is printed, with something behind its sign. -/
def marginText (behind : String → List Char) : List Char :=
  match w.line.margin with
  | none => []
  | some margin => ' ' :: marginSign :: behind margin

theorem toList_render :
    w.line.render.toList = w.lineText (w.marginText fun margin => ' ' :: margin.toList) := by
  have hfields : (String.intercalate " " w.line.fields).toList = w.fieldText := by
    rw [String.toList_intercalate, fieldText, ← w.fields_eq]
    rfl
  have hparameters :
      (String.intercalate "," (w.line.parameters.map (Parameter.spell ":_"))).toList =
        w.parameterText := by
    rw [String.toList_intercalate, List.map_map]
    rfl
  have hmargin : (renderMargin w.line.margin).toList =
      w.marginText fun margin => ' ' :: margin.toList := by
    rw [marginText]
    cases w.line.margin <;> simp [renderMargin]
  simp [render, lineText, procsText, hfields, hparameters, hmargin]

/-- The ends of what is printed up to the margin are no blanks. -/
theorem isTrimmed_name : Text.IsTrimmed w.line.name.toList :=
  Text.isTrimmed_of_forall fun c hc => isBlank_of_isNameChar (w.name_chars c hc)

theorem isTrimmed_fieldText : w.fieldText ≠ [] ∧ Text.IsTrimmed w.fieldText :=
  Text.isTrimmed_intercalate w.words_ne fun v hv => (w.isWord v hv).1

/-- **Trimming a line takes from its margin only.** -/
theorem trim_render :
    Text.trim w.line.render.toList =
      w.lineText (w.marginText fun margin => Text.trimRight (' ' :: margin.toList)) := by
  rw [toList_render, marginText, marginText]
  cases w.line.margin with
  | none =>
    obtain ⟨hne, htrimmed⟩ := w.isTrimmed_fieldText
    have hline := w.isTrimmed_name.append w.name_ne htrimmed hne
      ('/' :: (w.parameterText ++ '-' :: (w.procsText ++ [' '])))
    refine Text.trim_eq_self ?_
    simpa [lineText] using hline
  | some margin =>
    have hsign : Text.IsTrimmed [marginSign] :=
      Text.isTrimmed_of_forall (by simp [marginSign, Text.isBlank])
    have hline := w.isTrimmed_name.append w.name_ne hsign (by simp)
      ('/' :: (w.parameterText ++ '-' :: (w.procsText ++ (' ' :: (w.fieldText ++ [' '])))))
    have htrim := Text.trim_append (by simp [w.name_ne]) hline (' ' :: margin.toList)
    simpa [lineText] using htrim

/-! ### The line in the grammar -/

theorem mem_parameterText {c : Char} (hc : c ∈ w.parameterText) :
    c = ',' ∨ ∃ p ∈ w.line.parameters, c ∈ (p.spell ":_").toList := by
  rcases Text.mem_intercalate hc with h | ⟨segment, hsegment, h⟩
  · exact .inl h
  · obtain ⟨p, hp, rfl⟩ := List.mem_map.mp hsegment
    exact .inr ⟨p, hp, h⟩

theorem colon_mem_parameterText : ':' ∈ w.parameterText := by
  obtain ⟨p, rest, hparameters⟩ := List.exists_cons_of_ne_nil w.parameters_ne
  rw [parameterText, hparameters, List.map_cons, toList_spell]
  cases rest <;> simp [delimiter, List.intercalate_cons_cons]

theorem newline_notMem_fieldText : '\n' ∉ w.fieldText := by
  intro h
  rcases Text.mem_intercalate h with h | ⟨v, hv, h⟩
  · cases h
  · have hsolid := (w.isWord v hv).1.2 '\n' h
    cases hsolid

theorem marginSign_notMem_fieldText : ∀ c ∈ w.fieldText, c ≠ marginSign := by
  rintro c hc rfl
  rcases Text.mem_intercalate hc with h | ⟨v, hv, h⟩
  · cases h
  · exact (w.isWord v hv).2 h

theorem newline_notMem_marginText {behind : String → List Char}
    (h : ∀ margin ∈ w.line.margin, '\n' ∉ behind margin) : '\n' ∉ w.marginText behind := by
  rw [marginText]
  cases hmargin : w.line.margin with
  | none => simp
  | some margin => simpa [marginSign] using h margin hmargin

/-- A line is printed on one line. -/
theorem newline_notMem_render : '\n' ∉ w.line.render.toList := by
  have hmargin : '\n' ∉ w.marginText fun margin => ' ' :: margin.toList :=
    w.newline_notMem_marginText fun margin h => by simpa using w.margin_line margin h
  have hname : '\n' ∉ w.line.name.toList := fun h => absurd (w.name_chars _ h) (by decide)
  have hparameters : '\n' ∉ w.parameterText := by
    intro h
    rcases w.mem_parameterText h with h | ⟨p, hp, h⟩
    · cases h
    · cases (spell_chars (w.keys p hp) _ h).2
  have hprocs : '\n' ∉ w.procsText := fun h =>
    absurd ((Text.isDigits_toDigits _).2 _ h) (by decide)
  rw [toList_render, lineText]
  simp [hname, hparameters, hprocs, w.newline_notMem_fieldText, hmargin]

/-- **A printed line has the form of a result**, its pieces being what was printed. -/
def form : Form (Text.trim w.line.render.toList) where
  name := w.line.name.toList
  parameters := w.parameterText
  procs := w.procsText
  gap := [' ']
  rest := w.fieldText ++ w.marginText fun margin => Text.trimRight (' ' :: margin.toList)
  eq := w.trim_render
  name_ne := w.name_ne
  name_chars := w.name_chars
  parameters_ne := List.ne_nil_of_mem w.colon_mem_parameterText
  parameters_solid c hc := by
    rcases w.mem_parameterText hc with rfl | ⟨p, hp, h⟩
    · decide
    · exact (spell_chars (w.keys p hp) c h).2
  procs_ne := (Text.isDigits_toDigits _).1
  procs_digits c hc := Text.isDecimalDigit_of_isDigit ((Text.isDigits_toDigits _).2 c hc)
  gap_ne := by simp
  gap_blank := by simp [Text.isBlank]
  rest_solid c hc := by
    obtain ⟨hne, htrimmed⟩ := w.isTrimmed_fieldText
    rw [List.head?_append_of_ne_nil _ hne] at hc
    exact htrimmed.1 c hc
  rest_line h := by
    rcases List.mem_append.mp h with h | h
    · exact w.newline_notMem_fieldText h
    · refine w.newline_notMem_marginText (fun margin hmargin hline => ?_) h
      obtain ⟨r, hr, -⟩ := Text.exists_trimRight (' ' :: margin.toList)
      have hmem : '\n' ∈ ' ' :: margin.toList := hr ▸ List.mem_append_left r hline
      exact w.margin_line margin hmargin (by simpa using hmem)

/-- **The words before the margin are those of the fields.** -/
theorem words_form : w.form.words = w.words := by
  have hbefore : ∀ c ∈ w.fieldText, decide (c ≠ marginSign) = true := fun c hc => by
    simpa using w.marginSign_notMem_fieldText c hc
  have hmargin : ∃ blanks, beforeMargin w.form.rest = w.fieldText ++ blanks ∧
      ∀ c ∈ blanks, Text.isBlank c = true := by
    have hrest : w.form.rest =
        w.fieldText ++ w.marginText fun margin => Text.trimRight (' ' :: margin.toList) := rfl
    rw [hrest, beforeMargin, marginText]
    cases w.line.margin with
    | none =>
      refine ⟨[], ?_, by simp⟩
      rw [List.append_nil, List.takeWhile_eq_self_iff]
      exact hbefore
    | some margin =>
      have hall : ∀ c ∈ w.fieldText ++ [' '], decide (c ≠ marginSign) = true := by
        intro c hc
        rcases List.mem_append.mp hc with hc | hc
        · exact hbefore c hc
        · rw [List.mem_singleton.mp hc]
          decide
      have hstop : ∀ c ∈ (marginSign :: Text.trimRight (' ' :: margin.toList)).head?,
          decide (c ≠ marginSign) = false := by simp
      refine ⟨[' '], ?_, by simp [Text.isBlank]⟩
      simpa using Text.takeWhile_append_stop hall hstop
  obtain ⟨blanks, hrest, hblanks⟩ := hmargin
  rw [← Form.words_eq, hrest]
  exact Text.words_intercalate (fun v hv => (w.isWord v hv).1) hblanks

/-- **The segments are the parameters as they are printed.** -/
theorem segments_form :
    w.form.segments = w.line.parameters.map fun p => (p.spell ":_").toList := by
  refine List.splitOn_intercalate ',' (fun segment hsegment hcomma => ?_)
    (by simpa using w.parameters_ne)
  obtain ⟨p, hp, rfl⟩ := List.mem_map.mp hsegment
  exact (spell_chars (w.keys p hp) ',' hcomma).1 rfl

theorem isResult_form : w.form.IsResult := by
  refine ⟨.inl w.colon_mem_parameterText, ?_⟩
  rw [words_form]
  exact w.words_ne

variable {w} {fields : List (List Char)}

/-- **A printed line yields what was printed**, with the fields that its words are. -/
theorem yields_form (h : AreFields w.words fields) :
    w.form.Yields none ⟨w.line.name, w.line.parameters, fields.map String.ofList⟩ := by
  refine ⟨.whole (fun _ _ h => nomatch h), ⟨w.line.parameters.map some, ?_, ?_⟩, ?_⟩
  · rw [segments_form, List.forall₂_map_left_iff, List.forall₂_map_right_iff]
    exact List.forall₂_same.mpr fun p hp => says_spell (w.keys p hp)
  · simp [List.reduceOption, List.filterMap_map]
  · have hfields : (fields.map String.ofList).map String.toList = fields := by
      simp [Function.comp_def]
    rw [words_form, hfields]
    exact h

/-- **A printed line is read as it was printed.** -/
theorem token_render (h : AreFields w.words fields) :
    token none w.line.render.toList =
      .ok (some ⟨w.line.name, w.line.parameters, fields.map String.ofList⟩) :=
  token_eq_some_iff.mpr ⟨w.form, w.isResult_form, yields_form h⟩

end Written

end BenchReport.ResultLine
