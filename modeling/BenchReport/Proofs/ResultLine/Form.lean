import Mathlib
import BenchReport.Proofs.Text.Cut
import BenchReport.ResultLine

/-!
# The form of a result line

`BenchReport.ResultLine.parts?` cuts a line from both sides: the name from the left,
the processor count from the right end of the word behind the slash. A grammar knows
nothing of sides. `BenchReport.ResultLine.Form` is that grammar – five pieces that
make up the text, each over its own class of characters – and this file shows that
the cut finds the pieces whenever there are such pieces
(`BenchReport.ResultLine.parts?_eq_some_iff`).

The pieces are also the only ones. A parameter list may hold hyphens and slashes and
may itself end in something like a processor count, so the grammar looks ambiguous;
it is not, because a processor count is made of digits, and a hyphen is none: the
hyphen before it is the last one of its word.
-/

namespace BenchReport.ResultLine

/-- **A text in the form of a result line**, with the pieces it is made of. -/
structure Form (t : List Char) where
  /-- The benchmark's name. -/
  name : List Char
  /-- The parameter list. -/
  parameters : List Char
  /-- The number of processors. -/
  procs : List Char
  /-- The blanks behind the first word, all of them. -/
  gap : List Char
  /-- The fields and the margin. -/
  rest : List Char
  eq : t = name ++ '/' :: (parameters ++ '-' :: (procs ++ (gap ++ rest)))
  name_ne : name ≠ []
  name_chars : ∀ c ∈ name, isNameChar c = true
  parameters_ne : parameters ≠ []
  parameters_solid : ∀ c ∈ parameters, Text.isBlank c = false
  procs_ne : procs ≠ []
  procs_digits : ∀ c ∈ procs, Text.isDecimalDigit c = true
  gap_ne : gap ≠ []
  gap_blank : ∀ c ∈ gap, Text.isBlank c = true
  rest_solid : ∀ c ∈ rest.head?, Text.isBlank c = false
  rest_line : '\n' ∉ rest

/-! ### Classes of characters -/

/-- The codes of the characters of a name. -/
theorem code_of_isNameChar {c : Char} (h : isNameChar c = true) :
    65 ≤ c.toNat ∧ c.toNat ≤ 90 ∨ 97 ≤ c.toNat ∧ c.toNat ≤ 122 ∨
      48 ≤ c.toNat ∧ c.toNat ≤ 57 ∨ c.toNat = 95 := by
  simp only [isNameChar, Char.isAlphanum, Char.isAlpha, Char.isUpper, Char.isLower, Char.isDigit,
    Bool.or_eq_true, Bool.and_eq_true, decide_eq_true_eq, ← Char.toNat_inj, ge_iff_le,
    UInt32.le_iff_toNat_le, or_assoc] at h
  exact h

/-- No character of a name is a blank. -/
theorem isBlank_of_isNameChar {c : Char} (h : isNameChar c = true) : Text.isBlank c = false := by
  have hcode := code_of_isNameChar h
  simp only [Text.isBlank, Bool.or_eq_false_iff, Bool.and_eq_false_iff, decide_eq_false_iff_not]
  omega

/-- A blank is no digit of any script. -/
theorem isDecimalDigit_of_isBlank {c : Char} (h : Text.isBlank c = true) :
    Text.isDecimalDigit c = false := by
  have hall : ∀ n ∈ [9, 10, 11, 12, 13, 0x20, 0x85, 0xa0, 0x1680, 0x2000, 0x2001, 0x2002, 0x2003,
      0x2004, 0x2005, 0x2006, 0x2007, 0x2008, 0x2009, 0x200a, 0x2028, 0x2029, 0x202f, 0x205f,
      0x3000], (Text.decimalDigitRuns.any fun run => run.1 ≤ n && n ≤ run.2) = false := by
    decide
  refine hall c.toNat ?_
  simp only [Text.isBlank, Bool.or_eq_true, Bool.and_eq_true, decide_eq_true_eq] at h
  simp only [List.mem_cons, List.not_mem_nil, or_false]
  omega

theorem isBlank_of_isDecimalDigit {c : Char} (h : Text.isDecimalDigit c = true) :
    Text.isBlank c = false := by
  by_contra hblank
  rw [isDecimalDigit_of_isBlank (Bool.of_not_eq_false hblank)] at h
  cases h

namespace Form

variable {t : List Char}

/-- The first word behind the slash has no blank in it. -/
theorem word_solid (f : Form t) : ∀ c ∈ f.parameters ++ '-' :: f.procs, Text.isBlank c = false := by
  intro c hc
  rcases List.mem_append.mp hc with h | h
  · exact f.parameters_solid c h
  · rcases List.mem_cons.mp h with rfl | h
    · decide
    · exact isBlank_of_isDecimalDigit (f.procs_digits c h)

/-- The slash behind the name is the first of the line. -/
theorem slash_notMem_name (f : Form t) : '/' ∉ f.name := fun h =>
  absurd (f.name_chars _ h) (by decide)

/-- The hyphen before the processor count is the last of its word. -/
theorem hyphen_notMem_procs (f : Form t) : '-' ∉ f.procs := fun h =>
  absurd (f.procs_digits _ h) (by decide)

/-- What stands behind the first word begins with a blank. -/
theorem head?_gap (f : Form t) : ∀ c ∈ (f.gap ++ f.rest).head?, Text.isBlank c = true := by
  obtain ⟨b, gap, hgap⟩ := List.exists_cons_of_ne_nil f.gap_ne
  intro c hc
  rw [hgap, List.cons_append, List.head?_cons, Option.mem_some_iff] at hc
  exact f.gap_blank c (by simp [hgap, hc])

/-- The pieces without the blanks between them. -/
def parts (f : Form t) : Parts := ⟨f.name, f.parameters, f.procs, f.rest⟩

end Form

/-! ### The cut of a word -/

/-- **The processor count is cut off at a hyphen with nothing but digits behind it**,
and there must be something on both sides of it. -/
theorem cutProcs?_eq_some_iff {word parameters procs : List Char} :
    cutProcs? word = some (parameters, procs) ↔
      word = parameters ++ '-' :: procs ∧ parameters ≠ [] ∧ procs ≠ [] ∧
        ∀ c ∈ procs, Text.isDecimalDigit c = true := by
  constructor
  · intro h
    obtain ⟨digits, behind, hback, hdigits, hstop⟩ :=
      Text.exists_run Text.isDecimalDigit word.reverse
    rw [cutProcs?, hback, Text.takeWhile_append_stop hdigits hstop,
      Text.dropWhile_append_stop hdigits hstop] at h
    split at h
    · rename_i backward
      split at h
      · cases h
      · rename_i hne
        simp only [Option.some.injEq, Prod.mk.injEq] at h
        obtain ⟨rfl, rfl⟩ := h
        rw [Bool.or_eq_true, List.isEmpty_iff, List.isEmpty_iff, not_or] at hne
        refine ⟨?_, by simpa using hne.2, hne.1, fun c hc => hdigits c (List.mem_reverse.mp hc)⟩
        rw [← List.reverse_inj]
        simpa using hback
    · cases h
  · rintro ⟨rfl, hparameters, hprocs, hdigits⟩
    have hback : (parameters ++ '-' :: procs).reverse =
        procs.reverse ++ '-' :: parameters.reverse := by simp
    have hrun : ∀ c ∈ procs.reverse, Text.isDecimalDigit c = true := fun c hc =>
      hdigits c (List.mem_reverse.mp hc)
    have hstop : ∀ c ∈ ('-' :: parameters.reverse).head?, Text.isDecimalDigit c = false := by
      simp only [List.head?_cons, Option.mem_some_iff, forall_eq']
      decide
    rw [cutProcs?, hback, Text.dropWhile_append_stop hrun hstop,
      Text.takeWhile_append_stop hrun hstop]
    simp [hparameters, hprocs]

/-! ### The cut of a line -/

/-- A text of the form of a result line is cut into its pieces. -/
theorem Form.parts?_eq {t : List Char} (f : Form t) : parts? t = some f.parts := by
  have hslash : ∀ c ∈ ('/' :: (f.parameters ++ '-' :: (f.procs ++ (f.gap ++ f.rest)))).head?,
      isNameChar c = false := by
    simp only [List.head?_cons, Option.mem_some_iff, forall_eq']
    decide
  have hword : ∀ c ∈ f.parameters ++ '-' :: f.procs, (!Text.isBlank c) = true := fun c hc => by
    simp [f.word_solid c hc]
  have hgap : ∀ c ∈ (f.gap ++ f.rest).head?, (!Text.isBlank c) = false := fun c hc => by
    simp [f.head?_gap c hc]
  have hsplit : f.parameters ++ '-' :: (f.procs ++ (f.gap ++ f.rest)) =
      (f.parameters ++ '-' :: f.procs) ++ (f.gap ++ f.rest) := by simp
  have hcut : cutProcs? (f.parameters ++ '-' :: f.procs) = some (f.parameters, f.procs) :=
    cutProcs?_eq_some_iff.mpr ⟨rfl, f.parameters_ne, f.procs_ne, f.procs_digits⟩
  rw [parts?]
  simp only [f.eq, Text.takeWhile_append_stop f.name_chars hslash,
    Text.dropWhile_append_stop f.name_chars hslash]
  rw [hsplit, Text.takeWhile_append_stop hword hgap, Text.dropWhile_append_stop hword hgap,
    Text.dropWhile_append_stop f.gap_blank f.rest_solid, hcut]
  simp [f.name_ne, f.gap_ne, f.rest_line, Form.parts]

/-- A text that is cut has the form of a result line. -/
theorem exists_form_of_parts? {t : List Char} {p : Parts} (h : parts? t = some p) :
    ∃ f : Form t, f.parts = p := by
  obtain ⟨name, behind, rfl, hname, hnamestop⟩ := Text.exists_run isNameChar t
  rw [parts?] at h
  simp only [Text.takeWhile_append_stop hname hnamestop,
    Text.dropWhile_append_stop hname hnamestop] at h
  split at h
  · rename_i afterSlash
    obtain ⟨word, afterWord, rfl, hword, hopen⟩ := Text.exists_run (fun c => !Text.isBlank c)
      afterSlash
    obtain ⟨gap, rest, rfl, hgap, hsolid⟩ := Text.exists_run Text.isBlank afterWord
    simp only [Text.takeWhile_append_stop hword hopen, Text.dropWhile_append_stop hword hopen,
      Text.dropWhile_append_stop hgap hsolid] at h
    split at h
    · cases h
    · rename_i hne
      simp only [Bool.or_eq_true, List.isEmpty_iff, List.contains_iff_mem, not_or] at hne
      obtain ⟨⟨hname_ne, hafter_ne⟩, hline⟩ := hne
      obtain ⟨⟨parameters, procs⟩, hcut, rfl⟩ := Option.map_eq_some_iff.mp h
      obtain ⟨rfl, hparameters_ne, hprocs_ne, hdigits⟩ := cutProcs?_eq_some_iff.mp hcut
      have hsolidword : ∀ c ∈ parameters, Text.isBlank c = false := fun c hc => by
        simpa using hword c (List.mem_append_left _ hc)
      have hgap_ne : gap ≠ [] := by
        -- the text behind the word begins with a blank, so the gap takes that in
        rintro rfl
        obtain ⟨c, tail, rfl⟩ := List.exists_cons_of_ne_nil hafter_ne
        have hblank : Text.isBlank c = true := by simpa using hopen
        have hnot : Text.isBlank c = false := hsolid c rfl
        rw [hblank] at hnot
        cases hnot
      exact ⟨⟨name, parameters, procs, gap, rest, by simp, hname_ne, hname, hparameters_ne,
        hsolidword, hprocs_ne, hdigits, hgap_ne, hgap, hsolid, hline⟩, rfl⟩
  · cases h

/-- **The cut finds the pieces of a line exactly when it has the form of a result.** -/
theorem parts?_eq_some_iff {t : List Char} {p : Parts} :
    parts? t = some p ↔ ∃ f : Form t, f.parts = p := by
  constructor
  · exact exists_form_of_parts?
  · rintro ⟨f, rfl⟩
    exact f.parts?_eq

/-- **A line has the form of a result in one way at most.** -/
theorem subsingleton_form (t : List Char) : Subsingleton (Form t) := by
  refine ⟨fun f g => ?_⟩
  have hparts : f.parts = g.parts := Option.some.inj (f.parts?_eq.symm.trans g.parts?_eq)
  obtain ⟨name, parameters, procs, gap, rest, heq, _⟩ := f
  obtain ⟨name', parameters', procs', gap', rest', heq', _⟩ := g
  simp only [Form.parts, Parts.mk.injEq] at hparts
  obtain ⟨rfl, rfl, rfl, rfl⟩ := hparts
  have hgap : gap = gap' := by simpa using heq.symm.trans heq'
  subst hgap
  rfl

end BenchReport.ResultLine
