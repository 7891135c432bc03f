import Mathlib
import BenchReport.Proofs.Text.Cut
import BenchReport.Text.Blank

/-!
# What trimming and cutting into words leave

`BenchReport.Text.trim` takes blanks off the two ends and nothing else. So a trimmed
text is known by its ends alone: whatever blanks are put around a text that begins
and ends with a character that prints, trimming finds that text again
(`BenchReport.Text.trim_eq_of_append`).

`BenchReport.Text.words` reads from the right with one open word. What it computes
is the cut at *every* blank with the empty pieces thrown away
(`BenchReport.Text.words_eq`), and that is the form in which words are counted and
put together again here.
-/

namespace BenchReport.Text

/-! ### Trimming -/

/-- A text whose ends are no blanks; the empty text is one. -/
def IsTrimmed (s : List Char) : Prop :=
  (∀ c ∈ s.head?, isBlank c = false) ∧ ∀ c ∈ s.getLast?, isBlank c = false

theorem exists_trimRight (s : List Char) :
    ∃ r, s = trimRight s ++ r ∧ ∀ c ∈ r, isBlank c = true := by
  refine ⟨(s.reverse.takeWhile isBlank).reverse, ?_, fun c hc => ?_⟩
  · rw [trimRight, ← List.reverse_append, List.takeWhile_append_dropWhile, List.reverse_reverse]
  · exact List.mem_takeWhile_imp (List.mem_reverse.mp hc)

/-- **Trimming takes off blanks, and only at the ends.** -/
theorem exists_trim (s : List Char) :
    ∃ l r, s = l ++ trim s ++ r ∧ (∀ c ∈ l, isBlank c = true) ∧ ∀ c ∈ r, isBlank c = true := by
  obtain ⟨r, hr, hblank⟩ := exists_trimRight (trimLeft s)
  refine ⟨s.takeWhile isBlank, r, ?_, fun c hc => List.mem_takeWhile_imp hc, hblank⟩
  rw [trim, List.append_assoc, ← hr]
  exact List.takeWhile_append_dropWhile.symm

theorem getLast?_trimRight (s : List Char) : ∀ c ∈ (trimRight s).getLast?, isBlank c = false := by
  rw [trimRight, List.getLast?_reverse]
  exact head?_dropWhile isBlank s.reverse

theorem isTrimmed_trim (s : List Char) : IsTrimmed (trim s) := by
  refine ⟨fun c hc => ?_, getLast?_trimRight (trimLeft s)⟩
  obtain ⟨r, hr, -⟩ := exists_trimRight (trimLeft s)
  refine head?_dropWhile isBlank s c ?_
  -- taking blanks off the right end leaves the first character where it is
  change c ∈ (trimLeft s).head?
  rw [hr, List.head?_append]
  exact Option.mem_def.mpr (by rw [trim] at hc; rw [Option.mem_def.mp hc]; rfl)

theorem trimRight_append {s r : List Char} (hs : ∀ c ∈ s.getLast?, isBlank c = false)
    (hr : ∀ c ∈ r, isBlank c = true) : trimRight (s ++ r) = s := by
  rw [trimRight, List.reverse_append, dropWhile_append_stop (fun c hc => hr c (by simpa using hc))
    (by simpa using hs), List.reverse_reverse]

/-- **A trimmed text is found again** whatever blanks stand around it. -/
theorem trim_eq_of_append {l s r : List Char} (hl : ∀ c ∈ l, isBlank c = true)
    (hs : IsTrimmed s) (hr : ∀ c ∈ r, isBlank c = true) : trim (l ++ s ++ r) = s := by
  rcases s.eq_nil_or_concat with rfl | ⟨s', c, rfl⟩
  · have hblank : ∀ c ∈ l ++ r, isBlank c = true := by
      intro c hc
      rcases List.mem_append.mp hc with h | h
      · exact hl c h
      · exact hr c h
    rw [trim, trimLeft, List.append_nil, List.dropWhile_eq_nil_iff.mpr hblank]
    rfl
  · rw [trim, trimLeft, List.append_assoc, dropWhile_append_stop hl, trimRight_append hs.2 hr]
    intro d hd
    refine hs.1 d ?_
    cases s' <;> simpa using hd

theorem trim_eq_self {s : List Char} (h : IsTrimmed s) : trim s = s := by
  simpa using trim_eq_of_append (l := []) (r := []) (by simp) h (by simp)

@[simp] theorem trim_trim (s : List Char) : trim (trim s) = trim s :=
  trim_eq_self (isTrimmed_trim s)

/-- Blanks behind a text are taken off with its own. -/
theorem trim_append_blanks (s : List Char) {r : List Char} (hr : ∀ c ∈ r, isBlank c = true) :
    trim (s ++ r) = trim s := by
  obtain ⟨l, r', hs, hl, hr'⟩ := exists_trim s
  conv_lhs => rw [hs, List.append_assoc]
  refine trim_eq_of_append hl (isTrimmed_trim s) fun c hc => ?_
  rcases List.mem_append.mp hc with hc | hc
  · exact hr' c hc
  · exact hr c hc

/-- **Behind a trimmed text only the right end is trimmed.** -/
theorem trim_append {s : List Char} (hne : s ≠ []) (hs : IsTrimmed s) (r : List Char) :
    trim (s ++ r) = s ++ trimRight r := by
  obtain ⟨blanks, hr, hblanks⟩ := exists_trimRight r
  have htrimmed : IsTrimmed (s ++ trimRight r) := by
    refine ⟨fun c hc => hs.1 c ?_, fun c hc => ?_⟩
    · rwa [List.head?_append_of_ne_nil _ hne] at hc
    · by_cases hnil : trimRight r = []
      · exact hs.2 c (by simpa [hnil] using hc)
      · rw [List.getLast?_append_of_ne_nil _ hnil] at hc
        exact getLast?_trimRight r c hc
  have htrim := trim_eq_of_append (l := []) (by simp) htrimmed hblanks
  rw [List.nil_append, List.append_assoc, ← hr] at htrim
  exact htrim

/-- Whatever stands between two trimmed texts, the ends are theirs. -/
theorem IsTrimmed.append {a b : List Char} (ha : IsTrimmed a) (hane : a ≠ []) (hb : IsTrimmed b)
    (hbne : b ≠ []) (between : List Char) : IsTrimmed (a ++ between ++ b) := by
  refine ⟨fun c hc => ha.1 c ?_, fun c hc => hb.2 c ?_⟩
  · rwa [List.append_assoc, List.head?_append_of_ne_nil _ hane] at hc
  · rwa [List.getLast?_append_of_ne_nil _ hbne] at hc

/-- A text without blanks has none at its ends. -/
theorem isTrimmed_of_forall {s : List Char} (h : ∀ c ∈ s, isBlank c = false) : IsTrimmed s :=
  ⟨fun c hc => h c (List.mem_of_mem_head? hc), fun c hc => h c (List.mem_of_mem_getLast? hc)⟩

/-! ### Words -/

/-- **Words are the pieces between blanks that are not empty.** -/
theorem words_eq (s : List Char) : words s = (s.splitOnP isBlank).filter fun w => !w.isEmpty := by
  have hcut : ∃ pieces, s.splitOnP isBlank = (s.foldr Cut.extend ⟨[], []⟩).current :: pieces ∧
      (s.foldr Cut.extend ⟨[], []⟩).closed = pieces.filter fun w => !w.isEmpty := by
    induction s with
    | nil => exact ⟨[], rfl, rfl⟩
    | cons c s ih =>
      obtain ⟨pieces, hsplit, hclosed⟩ := ih
      rw [List.splitOnP_cons_eq_if_modifyHead, hsplit, List.foldr_cons, Cut.extend]
      by_cases hc : isBlank c = true
      · refine ⟨_, by simp [hc]; rfl, ?_⟩
        simp only [hc, if_true, Cut.words, hclosed, List.filter_cons]
        split <;> simp_all
      · exact ⟨pieces, by simp [hc], by simp [hc, hclosed]⟩
  obtain ⟨pieces, hsplit, hclosed⟩ := hcut
  rw [words, hsplit, Cut.words, hclosed, List.filter_cons]
  split <;> simp_all

theorem words_nil : words [] = [] := rfl

/-- A blank in front of a text adds no word to it. -/
theorem words_cons_blank {c : Char} (hc : isBlank c = true) (s : List Char) :
    words (c :: s) = words s := by
  rw [words_eq, words_eq, List.splitOnP_cons_eq_if_modifyHead, if_pos hc]
  rfl

/-- A word that is followed by a blank is the first word of the text. -/
theorem words_append_blank {w : List Char} (hw : IsWord w) {c : Char} (hc : isBlank c = true)
    (s : List Char) : words (w ++ c :: s) = w :: words s := by
  rw [words_eq, words_eq, List.splitOnP_append_cons_of_forall_mem hw.2 c hc, List.filter_cons,
    if_pos (by simp [hw.1])]

/-- A word is the only word of the text that it is. -/
theorem words_of_isWord {w : List Char} (hw : IsWord w) : words w = [w] := by
  rw [words_eq, List.splitOnP_eq_singleton hw.2, List.filter_cons, if_pos (by simp [hw.1])]
  rfl

/-- A text has no word exactly when it holds nothing but blanks. -/
theorem words_eq_nil_iff {s : List Char} : words s = [] ↔ ∀ c ∈ s, isBlank c = true := by
  induction s with
  | nil => simp [words_nil]
  | cons c s ih =>
    by_cases hc : isBlank c = true
    · rw [words_cons_blank hc, ih]
      simp [hc]
    · refine iff_of_false ?_ fun h => hc (h c (by simp))
      rw [words_eq, List.splitOnP_cons_eq_if_modifyHead, if_neg hc]
      obtain ⟨w, pieces, hw⟩ := List.exists_cons_of_ne_nil (List.splitOnP_ne_nil isBlank s)
      simp [hw]

/-! ### Words set side by side -/

theorem mem_intercalate {sep c : Char} {ws : List (List Char)} (h : c ∈ [sep].intercalate ws) :
    c = sep ∨ ∃ w ∈ ws, c ∈ w := by
  induction ws with
  | nil => cases h
  | cons w ws ih =>
    rcases ws with _ | ⟨w', ws⟩
    · exact .inr ⟨w, by simp, by simpa using h⟩
    · rw [List.intercalate_cons_cons, List.append_assoc] at h
      rcases List.mem_append.mp h with h | h
      · exact .inr ⟨w, by simp, h⟩
      · rcases List.mem_cons.mp h with h | h
        · exact .inl h
        · obtain h | ⟨v, hv, hc⟩ := ih h
          · exact .inl h
          · exact .inr ⟨v, List.mem_cons_of_mem _ hv, hc⟩

/-- **Words with blanks between them are the words of the text**, whatever blanks
follow. -/
theorem words_intercalate {ws : List (List Char)} (hws : ∀ w ∈ ws, IsWord w) {r : List Char}
    (hr : ∀ c ∈ r, isBlank c = true) : words ([' '].intercalate ws ++ r) = ws := by
  induction ws with
  | nil => exact words_eq_nil_iff.mpr hr
  | cons w ws ih =>
    rcases ws with _ | ⟨w', ws⟩
    · rw [List.intercalate_singleton]
      rcases r with _ | ⟨b, r⟩
      · rw [List.append_nil, words_of_isWord (hws w (by simp))]
      · rw [words_append_blank (hws w (by simp)) (hr b (by simp)),
          words_eq_nil_iff.mpr fun c hc => hr c (List.mem_cons_of_mem _ hc)]
    · have hsplit : [' '].intercalate (w :: w' :: ws) ++ r =
          w ++ ' ' :: ([' '].intercalate (w' :: ws) ++ r) := by
        rw [List.intercalate_cons_cons]
        simp
      rw [hsplit, words_append_blank (hws w (by simp)) (by decide),
        ih fun v hv => hws v (List.mem_cons_of_mem _ hv)]

/-- The ends of words set side by side are those of words. -/
theorem isTrimmed_intercalate {ws : List (List Char)} (hne : ws ≠ []) (hws : ∀ w ∈ ws, IsWord w) :
    [' '].intercalate ws ≠ [] ∧ IsTrimmed ([' '].intercalate ws) := by
  induction ws with
  | nil => exact absurd rfl hne
  | cons w ws ih =>
    have hw := hws w (by simp)
    rcases ws with _ | ⟨w', ws⟩
    · rw [List.intercalate_singleton]
      exact ⟨hw.1, isTrimmed_of_forall hw.2⟩
    · obtain ⟨hrest, -, hlast⟩ := ih (by simp) fun v hv => hws v (List.mem_cons_of_mem _ hv)
      rw [List.intercalate_cons_cons]
      refine ⟨by simp, fun c hc => hw.2 c ?_, fun c hc => hlast c ?_⟩
      · rw [List.append_assoc, List.head?_append_of_ne_nil _ hw.1] at hc
        exact List.mem_of_mem_head? hc
      · rwa [List.getLast?_append_of_ne_nil _ hrest] at hc

end BenchReport.Text
