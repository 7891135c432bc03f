import Mathlib
import BenchReport.Proofs.ResultLine.Fields
import BenchReport.Proofs.ResultLine.Form
import BenchReport.Proofs.ResultLine.Segment

/-!
# The grammar of result lines

`BenchReport.ResultLine.token` answers in three ways, and the grammar says when it
gives which. The form of a line (`BenchReport.ResultLine.Form`) settles where its
pieces are, and everything else is said of the pieces:

| answer | the line |
|---|---|
| no result | has no form, or its parameters have no sign, or it has no word before the margin |
| a fault | is a result, and one of its segments is malformed |
| a token | is a result, and none of its segments is malformed |

The token is the one that the grammar yields (`BenchReport.ResultLine.Form.Yields`),
and the fault names the first malformed segment. As a line has one form at
most, the three cases exclude each other.
-/

namespace BenchReport.ResultLine

/-- **What is left of a name** once a beginning is dropped: the text behind the
beginning, unless there is none or the name does not begin so. -/
inductive ShortName : Option String → List Char → List Char → Prop
  /-- The name goes on behind the beginning. -/
  | cut {start : String} {rest : List Char} (hrest : rest ≠ []) :
      ShortName (some start) (start.toList ++ rest) rest
  /-- There is nothing to drop, or nothing would be left. -/
  | whole {start : Option String} {name : List Char}
      (h : ∀ s rest, start = some s → name = s.toList ++ rest → rest = []) :
      ShortName start name name

namespace Form

variable {t : List Char}

/-- The segments of the parameter list. -/
def segments (f : Form t) : List (List Char) := f.parameters.splitOn ','

/-- The words before the margin. -/
def words (f : Form t) : List (List Char) :=
  ((f.rest.takeWhile (· ≠ marginSign)).splitOnP Text.isBlank).filter fun w => !w.isEmpty

/-- **A line that states a result**: its parameters have a colon or an equals sign in
them, and there is something to read behind them. -/
structure IsResult (f : Form t) : Prop where
  sign : ':' ∈ f.parameters ∨ '=' ∈ f.parameters
  words_ne : f.words ≠ []

/-- **The token of a line**: what is left of its name, what its segments say, and the
fields that its words are. -/
structure Yields (f : Form t) (start : Option String) (tok : Token) : Prop where
  name : ShortName start f.name tok.name.toList
  parameters : ∃ said, List.Forall₂ Says f.segments said ∧ tok.parameters = said.reduceOption
  fields : AreFields f.words (tok.fields.map String.toList)

end Form

/-! ### The pieces of a token -/

/-- A name is shortened as the grammar says. -/
theorem dropNameStart_eq_iff {start : Option String} {name rest : List Char} :
    dropNameStart start name = rest ↔ ShortName start name rest := by
  cases start with
  | none =>
    constructor
    · rintro rfl
      exact .whole fun s rest h => nomatch h
    · rintro (_ | h)
      rfl
  | some start =>
    rw [dropNameStart, Text.dropStart?]
    by_cases hstart : start.toList <+: name
    · obtain ⟨left, rfl⟩ := hstart
      cases left with
      | nil =>
        simp only [List.append_nil, List.isPrefixOf_iff_prefix, List.prefix_refl, if_true,
          List.drop_length]
        constructor
        · rintro rfl
          refine .whole fun s rest h hname => ?_
          obtain rfl : start = s := Option.some.inj h
          simpa using hname
        · generalize hwhole : start.toList = whole
          rintro (_ | _)
          · simp_all
          · rfl
      | cons c left =>
        simp only [List.isPrefixOf_iff_prefix, List.prefix_append, if_true, List.drop_left]
        constructor
        · rintro rfl
          exact .cut (by simp)
        · generalize hwhole : start.toList ++ c :: left = whole
          rintro (⟨-⟩ | h)
          · exact List.append_cancel_left hwhole
          · exact absurd (h start (c :: left) rfl hwhole.symm) (by simp)
    · rw [if_neg (by simpa using hstart)]
      constructor
      · rintro rfl
        refine .whole fun s rest h hname => ?_
        obtain rfl : start = s := Option.some.inj h
        exact absurd ⟨rest, hname.symm⟩ hstart
      · rintro (_ | _)
        · exact absurd (List.prefix_append _ _) hstart
        · rfl

theorem hasParameters_eq_true_iff {s : List Char} :
    hasParameters s = true ↔ ':' ∈ s ∨ '=' ∈ s := by
  simp only [hasParameters, List.any_eq_true, Bool.or_eq_true, decide_eq_true_eq]
  constructor
  · rintro ⟨c, hc, rfl | rfl⟩
    · exact .inl hc
    · exact .inr hc
  · rintro (h | h)
    · exact ⟨_, h, .inl rfl⟩
    · exact ⟨_, h, .inr rfl⟩

namespace Form

variable {t : List Char}

theorem words_eq (f : Form t) : Text.words (beforeMargin f.rest) = f.words :=
  Text.words_eq _

theorem readParameters_eq (f : Form t) : readParameters f.parameters = readSegments f.segments := by
  rw [readParameters, Text.splitOn_eq, segments]

theorem isResult_iff (f : Form t) :
    f.IsResult ↔ (!hasParameters f.parameters || (gatherFields f.rest).isEmpty) = false := by
  rw [Bool.or_eq_false_iff, Bool.not_eq_false', hasParameters_eq_true_iff,
    List.isEmpty_eq_false_iff, ne_eq, gatherFields_eq_nil_iff, words_eq]
  exact ⟨fun h => ⟨h.sign, h.words_ne⟩, fun h => ⟨h.1, h.2⟩⟩

/-- **A line of the right form states no result** if its parameters have no sign in
them, or if there is nothing to read behind them. -/
theorem not_isResult_iff (f : Form t) :
    ¬f.IsResult ↔ (':' ∉ f.parameters ∧ '=' ∉ f.parameters) ∨ f.words = [] := by
  constructor
  · intro h
    by_contra hcon
    rw [not_or, not_and_or, not_not, not_not] at hcon
    exact h ⟨hcon.1, hcon.2⟩
  · rintro (⟨hcolon, hequals⟩ | hwords) h
    · exact h.sign.elim hcolon hequals
    · exact h.words_ne hwords

end Form

/-! ### The three answers -/

section Token

variable {start : Option String} {line : List Char}

theorem token_of_not_form (h : Form (Text.trim line) → False) : token start line = .ok none := by
  rw [token]
  cases hparts : parts? (Text.trim line) with
  | none => rfl
  | some p => exact ((parts?_eq_some_iff.mp hparts).elim fun f _ => h f).elim

theorem token_of_not_isResult {f : Form (Text.trim line)} (h : ¬f.IsResult) :
    token start line = .ok none := by
  rw [Form.isResult_iff, Bool.not_eq_false] at h
  rw [token, f.parts?_eq]
  simp only [Form.parts, h, if_true]

theorem token_of_isResult {f : Form (Text.trim line)} (h : f.IsResult) :
    token start line = (readSegments f.segments).map fun parameters =>
      some ⟨String.ofList (dropNameStart start f.name), parameters,
        (gatherFields f.rest).map String.ofList⟩ := by
  rw [Form.isResult_iff] at h
  rw [token, f.parts?_eq, ← f.readParameters_eq]
  simp only [Form.parts, h]
  cases readParameters f.parameters <;> rfl

/-- **A line is no result exactly when none of its forms states one.** -/
theorem token_eq_none_iff :
    token start line = .ok none ↔ ∀ f : Form (Text.trim line), ¬f.IsResult := by
  constructor
  · intro h f hf
    rw [token_of_isResult hf] at h
    cases hread : readSegments f.segments <;> simp [hread, Except.map] at h
  · intro h
    by_cases hform : Nonempty (Form (Text.trim line))
    · exact token_of_not_isResult (h hform.some)
    · exact token_of_not_form fun f => hform ⟨f⟩

/-- A line with an answer other than `none` states a result. -/
theorem exists_isResult_of_token_ne (h : token start line ≠ .ok none) :
    ∃ f : Form (Text.trim line), f.IsResult := by
  by_contra hnone
  exact h (token_eq_none_iff.mpr fun f hf => hnone ⟨f, hf⟩)

/-- **A result is read exactly as the grammar says.** -/
theorem token_eq_some_iff {tok : Token} :
    token start line = .ok (some tok) ↔
      ∃ f : Form (Text.trim line), f.IsResult ∧ f.Yields start tok := by
  constructor
  · intro h
    obtain ⟨f, hf⟩ := exists_isResult_of_token_ne (h.trans_ne (by simp))
    rw [token_of_isResult hf] at h
    cases hread : readSegments f.segments with
    | error fault => simp [hread, Except.map] at h
    | ok parameters =>
      simp only [hread, Except.map, Except.ok.injEq, Option.some.injEq] at h
      subst h
      refine ⟨f, hf, ?_, readSegments_eq_ok_iff.mp hread, ?_⟩
      · rw [String.toList_ofList]
        exact dropNameStart_eq_iff.mp rfl
      · rw [← f.words_eq]
        refine gatherFields_eq_iff.mp ?_
        simp [Function.comp_def]
  · rintro ⟨f, hf, hname, hparameters, hfields⟩
    rw [← f.words_eq, ← gatherFields_eq_iff] at hfields
    rw [token_of_isResult hf, readSegments_eq_ok_iff.mpr hparameters, hfields,
      dropNameStart_eq_iff.mpr hname]
    simp [Except.map, Function.comp_def]

/-- **A damaged result is refused with its first malformed segment.** -/
theorem token_eq_error_iff {segment : List Char} :
    (∃ cause, token start line = .error (.malformedParameter (String.ofList segment) cause)) ↔
      ∃ f : Form (Text.trim line), f.IsResult ∧ FirstMalformed f.segments segment := by
  constructor
  · rintro ⟨cause, h⟩
    obtain ⟨f, hf⟩ := exists_isResult_of_token_ne (h.trans_ne (by simp))
    rw [token_of_isResult hf] at h
    cases hread : readSegments f.segments with
    | ok parameters => simp [hread, Except.map] at h
    | error fault =>
      obtain ⟨bad, _, hbad, rfl⟩ := firstMalformed_of_readSegments hread
      simp only [hread, Except.map, Except.error.injEq, LineFault.malformedParameter.injEq,
        String.ofList_inj] at h
      obtain ⟨rfl, -⟩ := h
      exact ⟨f, hf, hbad⟩
  · rintro ⟨f, hf, hbad⟩
    obtain ⟨cause, hread⟩ := readSegments_of_firstMalformed hbad
    exact ⟨cause, by rw [token_of_isResult hf, hread]; rfl⟩

/-- A result is refused exactly when one of its segments is malformed. -/
theorem exists_token_eq_error_iff :
    (∃ segment cause, token start line = .error (.malformedParameter segment cause)) ↔
      ∃ f : Form (Text.trim line), f.IsResult ∧ ∃ segment ∈ f.segments, Malformed segment := by
  constructor
  · rintro ⟨segment, cause, h⟩
    rw [← String.ofList_toList (s := segment)] at h
    obtain ⟨f, hf, before, behind, hsegments, -, hbad⟩ := token_eq_error_iff.mp ⟨cause, h⟩
    exact ⟨f, hf, segment.toList, by simp [hsegments], hbad⟩
  · rintro ⟨f, hf, segment, hmem, hbad⟩
    obtain ⟨first, hfirst⟩ := exists_firstMalformed hmem hbad
    obtain ⟨cause, h⟩ := token_eq_error_iff.mpr ⟨f, hf, hfirst⟩
    exact ⟨String.ofList first, cause, h⟩

/-- **A result without malformed segments is never refused.** -/
theorem exists_token_of_isResult {f : Form (Text.trim line)} (hf : f.IsResult)
    (h : ∀ segment ∈ f.segments, ¬Malformed segment) :
    ∃ tok, token start line = .ok (some tok) := by
  rw [token_of_isResult hf]
  cases hread : readSegments f.segments with
  | ok parameters => exact ⟨_, rfl⟩
  | error fault =>
    obtain ⟨segment, _, ⟨before, behind, hsegments, -, hbad⟩, -⟩ :=
      firstMalformed_of_readSegments hread
    exact absurd hbad (h segment (by simp [hsegments]))

/-- **The grammar decides every line.** A line has the form of a result in one way at
most – the name ends at the first slash, and the parameters at the last hyphen of the
word behind it – and the form settles which of the three answers is given. -/
theorem token_follows_grammar (start : Option String) (line : List Char) :
    Subsingleton (Form (Text.trim line)) ∧
      (∀ f : Form (Text.trim line), '/' ∉ f.name ∧ '-' ∉ f.procs ∧
        ∀ c ∈ f.parameters ++ '-' :: f.procs, Text.isBlank c = false) ∧
      (token start line = .ok none ↔
        ∀ f : Form (Text.trim line), (':' ∉ f.parameters ∧ '=' ∉ f.parameters) ∨ f.words = []) ∧
      ((∃ segment cause, token start line = .error (.malformedParameter segment cause)) ↔
        ∃ f : Form (Text.trim line), f.IsResult ∧ ∃ segment ∈ f.segments, Malformed segment) ∧
      (∀ segment cause, token start line = .error (.malformedParameter segment cause) →
        ∃ f : Form (Text.trim line), FirstMalformed f.segments segment.toList) ∧
      (∀ f : Form (Text.trim line), f.IsResult → (∀ segment ∈ f.segments, ¬Malformed segment) →
        ∃ tok, token start line = .ok (some tok)) ∧
      ∀ tok, token start line = .ok (some tok) ↔
        ∃ f : Form (Text.trim line), f.IsResult ∧ f.Yields start tok := by
  refine ⟨subsingleton_form _, fun f => ⟨f.slash_notMem_name, f.hyphen_notMem_procs, f.word_solid⟩,
    ?_, exists_token_eq_error_iff, ?_, fun f hf h => exists_token_of_isResult hf h,
    fun tok => token_eq_some_iff⟩
  · rw [token_eq_none_iff]
    exact forall_congr' fun f => f.not_isResult_iff
  · intro segment cause h
    rw [← String.ofList_toList (s := segment)] at h
    obtain ⟨f, -, hfirst⟩ := token_eq_error_iff.mp ⟨cause, h⟩
    exact ⟨f, hfirst⟩

end Token

end BenchReport.ResultLine
