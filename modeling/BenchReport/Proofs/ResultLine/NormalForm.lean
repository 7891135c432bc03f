import Mathlib
import BenchReport.Proofs.ResultLine.Written
import BenchReport.Proofs.Text.Pieces

/-!
# Tokens are normal forms

A line can say the same thing in many ways: with underscores in front of its keys, a plus
before its values, units of time behind its fields. What is read from it, the token, has
lost all of that, and so there are tokens that no line gives. Which ones lines do give,
`BenchReport.ResultLine.Token.IsNormal` says by the characters of the parts alone:

* keys keep whatever a segment can hold in front of its first delimiter, slashes, colons and
  equals signs among them, but they have lost the underscores in front
  (`BenchReport.ResultLine.Form.Yields.isKey`);
* a field is a word with units of time behind it, and a unit ends at its slash, so that a
  slash is left in the first field only (`BenchReport.ResultLine.AreFields.slash_notMem`).

A token of this kind is written as it stands: no part of it is dropped, folded or cut when
the line is read again (`BenchReport.ResultLine.Token.IsNormal.token_render`).
-/

namespace BenchReport.ResultLine

/-- **A token in normal form.** -/
structure Token.IsNormal (t : Token) : Prop where
  /-- There is a name. -/
  name_ne : t.name.toList ≠ []
  /-- It is made of letters, digits and underscores. -/
  name_chars : ∀ c ∈ t.name.toList, isNameChar c = true
  /-- There is a parameter. -/
  parameters_ne : t.parameters ≠ []
  /-- Keys hold no blank, no comma and no delimiter, and begin with no underscore. -/
  keys : ∀ p ∈ t.parameters, IsKey p.key.toList
  /-- There is a field. -/
  fields_ne : t.fields ≠ []
  /-- Fields hold no blank and no sign of a margin, and none is empty. -/
  isWord : ∀ field ∈ t.fields, Text.IsWord field.toList ∧ marginSign ∉ field.toList
  /-- Only the first field can hold a slash. -/
  slash : ∀ field ∈ t.fields.tail, '/' ∉ field.toList

/-- The line that states a token. -/
def Token.line (t : Token) (procs : UInt32) (margin : Option String) : ResultLine :=
  ⟨t.name, t.parameters, procs, t.fields, margin⟩

/-! ### Names -/

/-- What is left of a name is its end, and it is something. -/
theorem ShortName.ne_nil_and_suffix {start : Option String} {name rest : List Char}
    (h : ShortName start name rest) (hne : name ≠ []) : rest ≠ [] ∧ rest <:+ name := by
  cases h with
  | cut hrest => exact ⟨hrest, List.suffix_append _ _⟩
  | whole => exact ⟨hne, List.suffix_rfl⟩

/-! ### Parameters -/

namespace Form

variable {t : List Char} (f : Form t)

/-- A character of the parameter list that is no comma stands in a segment. -/
theorem exists_mem_segments {c : Char} (hc : c ∈ f.parameters) (hcomma : c ≠ ',') :
    ∃ segment ∈ f.segments, c ∈ segment := by
  have hpiece : ∃ segment ∈ Text.pieces (· == ',') f.parameters, c ∈ segment :=
    Text.exists_mem_pieces hc (by simpa using hcomma)
  obtain ⟨segment, hmem, hc⟩ := hpiece
  exact ⟨segment, (List.mem_filter.mp hmem).1, hc⟩

/-- There is neither a blank nor a comma in a segment. -/
theorem chars_of_mem_segments {segment : List Char} (h : segment ∈ f.segments) {c : Char}
    (hc : c ∈ segment) : Text.isBlank c = false ∧ c ≠ ',' := by
  have hpiece : segment ∈ Text.pieces (· == ',') f.parameters :=
    List.mem_filter.mpr ⟨h, by simpa using List.ne_nil_of_mem hc⟩
  obtain ⟨hmem, hcomma⟩ := Text.mem_of_mem_pieces hpiece hc
  exact ⟨f.parameters_solid c hmem, by simpa using hcomma⟩

end Form

/-- The key in a segment without blanks and commas comes back as it is printed. -/
theorem Says.isKey {segment : List Char} {p : Parameter} (h : Says segment (some p))
    (hchars : ∀ c ∈ segment, Text.isBlank c = false ∧ c ≠ ',') : IsKey p.key.toList := by
  cases h with
  | @parameter underscores key value n hu hkey hhead hfirst hvalue =>
    rw [String.toList_ofList]
    have hmem : ∀ c ∈ key, c ∈ underscores ++ key ++ delimiter ++ value := fun c hc => by simp [hc]
    exact ⟨hkey, fun c hc => (hchars c (hmem c hc)).1, fun hc => (hchars _ (hmem _ hc)).2 rfl,
      hfirst, hhead⟩

namespace Form.Yields

variable {t : List Char} {f : Form t} {start : Option String} {tok : Token}

theorem isKey (h : f.Yields start tok) : ∀ p ∈ tok.parameters, IsKey p.key.toList := by
  obtain ⟨said, hsaid, hparameters⟩ := h.parameters
  intro p hp
  rw [hparameters, List.reduceOption_mem_iff] at hp
  obtain ⟨segment, hsegment, hsays⟩ := exists_mem_of_forall₂ hsaid.flip hp
  exact hsays.isKey fun c hc => f.chars_of_mem_segments hsegment hc

/-- **A result has a parameter**: the segment with a sign in it is more than underscores. -/
theorem parameters_ne (h : f.Yields start tok) (hf : f.IsResult) : tok.parameters ≠ [] := by
  obtain ⟨said, hsaid, hparameters⟩ := h.parameters
  have hsign : ∃ c ∈ f.parameters, c ≠ ',' ∧ c ≠ '_' := by
    rcases hf.sign with hc | hc
    · exact ⟨_, hc, by decide⟩
    · exact ⟨_, hc, by decide⟩
  obtain ⟨c, hc, hcomma, hunderscore⟩ := hsign
  obtain ⟨segment, hsegment, hc⟩ := f.exists_mem_segments hc hcomma
  obtain ⟨o, ho, hsays⟩ := exists_mem_of_forall₂ hsaid hsegment
  cases hsays with
  | nothing hu => exact absurd (hu c hc) hunderscore
  | parameter =>
    rw [hparameters]
    exact List.ne_nil_of_mem (List.reduceOption_mem_iff.mpr ho)

end Form.Yields

/-! ### Fields -/

/-- The words before the margin are words, and the margin does not begin in them. -/
theorem Form.isWord_of_mem_words {t : List Char} (f : Form t) {w : List Char} (h : w ∈ f.words) :
    Text.IsWord w ∧ marginSign ∉ w := by
  have hchars := fun c (hc : c ∈ w) => Text.mem_of_mem_pieces h hc
  refine ⟨⟨by simpa using (List.mem_filter.mp h).2, fun c hc => (hchars c hc).2⟩, fun hsign => ?_⟩
  simpa using List.mem_takeWhile_imp (hchars _ hsign).1

/-- What a unit adds to its field stands before the slash of the unit. -/
theorem mem_of_mem_timeSuffix {word : List Char} {c : Char} (h : c ∈ timeSuffix word) :
    c ∈ word ∧ c ≠ '/' := by
  rw [timeSuffix] at h
  split at h
  · exact ⟨(List.takeWhile_prefix _).subset h, by simpa using List.mem_takeWhile_imp h⟩
  · cases h

namespace Printed

variable {p : Printed}

/-- A character of a field is one of its first word, or of a unit and then no slash. -/
theorem mem_field {c : Char} (h : c ∈ p.field) :
    c ∈ p.head ∨ (∃ unit ∈ p.units, c ∈ unit) ∧ c ≠ '/' := by
  rcases List.mem_append.mp h with h | h
  · exact .inl h
  · obtain ⟨unit, hunit, h⟩ := List.mem_flatMap.mp h
    exact .inr ⟨⟨unit, hunit, (mem_of_mem_timeSuffix h).1⟩, (mem_of_mem_timeSuffix h).2⟩

/-- A field of words is a word. -/
theorem isWord_field (h : ∀ w ∈ p.words, Text.IsWord w ∧ marginSign ∉ w) :
    Text.IsWord p.field ∧ marginSign ∉ p.field := by
  have hhead := h p.head (by simp [words])
  have hchar : ∀ c ∈ p.field, ∃ w ∈ p.words, c ∈ w := by
    intro c hc
    rcases mem_field hc with hc | ⟨⟨unit, hunit, hc⟩, -⟩
    · exact ⟨p.head, by simp [words], hc⟩
    · exact ⟨unit, by simp [words, hunit], hc⟩
  refine ⟨⟨List.append_ne_nil_of_left_ne_nil hhead.1.1 _, fun c hc => ?_⟩, fun hsign => ?_⟩
  · obtain ⟨w, hw, hc⟩ := hchar c hc
    exact (h w hw).1.2 c hc
  · obtain ⟨w, hw, hsign⟩ := hchar _ hsign
    exact (h w hw).2 hsign

/-- Units bring no slash into a field. -/
theorem slash_notMem_field (h : '/' ∉ p.head) : '/' ∉ p.field := fun hslash =>
  (mem_field hslash).elim h fun hunit => hunit.2 rfl

end Printed

namespace AreFields

variable {words fields : List (List Char)}

theorem ne_nil (h : AreFields words fields) (hne : words ≠ []) : fields ≠ [] := by
  obtain ⟨printed, rfl, -, -, rfl⟩ := h
  rintro hnil
  rw [List.map_eq_nil_iff] at hnil
  exact hne (by rw [hnil]; rfl)

/-- **The fields of words are words.** -/
theorem isWord (h : AreFields words fields) (hwords : ∀ w ∈ words, Text.IsWord w ∧ marginSign ∉ w) :
    ∀ field ∈ fields, Text.IsWord field ∧ marginSign ∉ field := by
  obtain ⟨printed, rfl, -, -, rfl⟩ := h
  intro field hfield
  obtain ⟨p, hp, rfl⟩ := List.mem_map.mp hfield
  exact p.isWord_field fun w hw => hwords w (List.mem_flatMap.mpr ⟨p, hp, hw⟩)

/-- **Only the first field can hold a slash.** -/
theorem slash_notMem (h : AreFields words fields) : ∀ field ∈ fields.tail, '/' ∉ field := by
  obtain ⟨printed, -, -, hheads, rfl⟩ := h
  rw [← List.map_tail]
  intro field hfield
  obtain ⟨p, hp, rfl⟩ := List.mem_map.mp hfield
  exact p.slash_notMem_field (hheads p hp)

/-- Words without slashes behind the first one are their own fields. -/
theorem refl (h : ∀ w ∈ words.tail, '/' ∉ w) : AreFields words words := by
  refine ⟨words.map fun w => ⟨w, []⟩, ?_, by simp, ?_, ?_⟩
  · simp [List.flatMap_map, Printed.words]
  · rw [← List.map_tail]
    exact List.forall_mem_map.mpr h
  · simp [Function.comp_def, Printed.field]

end AreFields

/-! ### Tokens -/

section Token

variable {start : Option String} {line : List Char} {t : Token}

/-- **What is read from a line is in normal form.** -/
theorem isNormal_of_token (h : token start line = .ok (some t)) : t.IsNormal := by
  obtain ⟨f, hf, hyields⟩ := token_eq_some_iff.mp h
  obtain ⟨hname_ne, hname⟩ := hyields.name.ne_nil_and_suffix f.name_ne
  have hwords := hyields.fields.isWord fun w hw => f.isWord_of_mem_words hw
  have hslash := hyields.fields.slash_notMem
  rw [← List.map_tail] at hslash
  exact {
    name_ne := hname_ne
    name_chars := fun c hc => f.name_chars c (hname.subset hc)
    parameters_ne := hyields.parameters_ne hf
    keys := hyields.isKey
    fields_ne := by simpa using hyields.fields.ne_nil hf.words_ne
    isWord := by simpa using hwords
    slash := fun field hfield => hslash _ (List.mem_map_of_mem hfield) }

/-- A token in normal form is written in words that are its fields. -/
def Token.IsNormal.written (h : t.IsNormal) (procs : UInt32) {margin : Option String}
    (hmargin : ∀ m ∈ margin, '\n' ∉ m.toList) : Written where
  line := t.line procs margin
  words := t.fields.map String.toList
  name_ne := h.name_ne
  name_chars := h.name_chars
  parameters_ne := h.parameters_ne
  keys := h.keys
  words_ne := by simpa using h.fields_ne
  isWord := by simpa using h.isWord
  fields_eq := rfl
  margin_line := hmargin

/-- **A token in normal form is read as it was written.** -/
theorem Token.IsNormal.token_render (h : t.IsNormal) (procs : UInt32) {margin : Option String}
    (hmargin : ∀ m ∈ margin, '\n' ∉ m.toList) :
    token none (t.line procs margin).render.toList = .ok (some t) := by
  have hslash : ∀ w ∈ (t.fields.map String.toList).tail, '/' ∉ w := by
    rw [← List.map_tail]
    exact List.forall_mem_map.mpr h.slash
  have hfields : (t.fields.map String.toList).map String.ofList = t.fields := by
    simp [Function.comp_def]
  have htoken : token none (t.line procs margin).render.toList =
      .ok (some ⟨t.name, t.parameters, (t.fields.map String.toList).map String.ofList⟩) :=
    (h.written procs hmargin).token_render (.refl hslash)
  rwa [hfields] at htoken

/-- **Reading brings a line into normal form.** The token of a line has a name, a parameter
and a field at least, all of the characters that belong there; and whatever processor count
and margin it is written with, the line that is written gives that token again. -/
theorem token_is_normal_form (h : token start line = .ok (some t)) :
    t.IsNormal ∧ ∀ (procs : UInt32) (margin : Option String), (∀ m ∈ margin, '\n' ∉ m.toList) →
      token none (t.line procs margin).render.toList = .ok (some t) :=
  have hnormal := isNormal_of_token h
  ⟨hnormal, fun procs _ hmargin => hnormal.token_render procs hmargin⟩

/-- A token that has gone through all of it: a name less its beginning, underscores before a
key and a segment of nothing else, a plus and the minus of a zero, a hyphen, a slash and a colon
in keys, a slash in the first field, a unit of time that is folded in and one that is dropped. -/
theorem folded_token_is_normal_form :
    let line := " BenchmarkX/__a-1=/b:_+5,_,c::_-0-4  1/2 3 ns/op 7 B/op ± 3%\r".toList
    let t : Token := ⟨"X", [⟨"a-1=/b", 5⟩, ⟨"c:", 0⟩], ["1/2", "3ns", "7"]⟩
    token (some "Benchmark") line = .ok (some t) ∧ t.IsNormal ∧
      ∀ (procs : UInt32) (margin : Option String), (∀ m ∈ margin, '\n' ∉ m.toList) →
        token none (t.line procs margin).render.toList = .ok (some t) :=
  have h : token (some "Benchmark")
      " BenchmarkX/__a-1=/b:_+5,_,c::_-0-4  1/2 3 ns/op 7 B/op ± 3%\r".toList =
        .ok (some ⟨"X", [⟨"a-1=/b", 5⟩, ⟨"c:", 0⟩], ["1/2", "3ns", "7"]⟩) := rfl
  ⟨h, token_is_normal_form h⟩

end Token

end BenchReport.ResultLine
