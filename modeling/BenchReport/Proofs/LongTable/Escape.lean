import Mathlib
import BenchReport.LongTable

/-!
# Escaped texts

What a text is escaped to is a sequence of **forms**, one for each character: a character that
LaTeX does not act on is its own form, and each of the ten others has a longer one
(`BenchReport.LongTable.Prints`). Some of the longer forms hold characters that LaTeX does act
on – every one begins with a backslash, and a command ends in braces – so that no character is
lost cannot be seen from the characters one by one. It is seen from the left: the first form
of an escaped text shows where it ends, whatever follows it
(`BenchReport.LongTable.unescapeFirst?_append`), and there is no other text of which this is
said (`BenchReport.LongTable.exists_append_of_unescapeFirst?`). Read form by form, an escaped
text gives its text back, and a text that is not an escaped one is refused
(`BenchReport.LongTable.unescape?_eq_some_iff`).
-/

namespace BenchReport.LongTable

/-! ### Forms -/

/-- The characters that LaTeX acts on, with the form in which it prints each. -/
def specialForms : List (Char × String) :=
  [('\\', "\\textbackslash\x7b\x7d"), ('&', "\\&"), ('%', "\\%"), ('$', "\\$"), ('#', "\\#"),
    ('_', "\\_"), ('\x7b', "\\\x7b"), ('\x7d', "\\\x7d"), ('~', "\\textasciitilde\x7b\x7d"),
    ('^', "\\textasciicircum\x7b\x7d")]

/-- Whether a form is that in which a character is printed. -/
inductive Prints : Char → List Char → Prop where
  /-- What LaTeX does not act on prints itself. -/
  | plain {c : Char} (h : c ∉ specialForms.map Prod.fst) : Prints c [c]
  /-- What it acts on is printed by a form of its own. -/
  | special {c : Char} {form : String} (h : (c, form) ∈ specialForms) : Prints c form.toList

section Forms

variable {c : Char} {form : List Char}

theorem escapeChar_of_plain (hcommand : commandFor? c = none) (hback : isBackslashed c = false) :
    escapeChar c = [c] := by
  rw [escapeChar, hcommand]
  exact if_neg (by rw [hback]; exact Bool.false_ne_true)

/-- What LaTeX does not act on has neither a command nor a backslash. -/
theorem commandFor?_eq_none_of_plain (h : c ∉ specialForms.map Prod.fst) :
    commandFor? c = none ∧ isBackslashed c = false := by
  simp only [specialForms, List.map_cons, List.map_nil, List.mem_cons, List.not_mem_nil, or_false,
    not_or] at h
  obtain ⟨hback, hand, hpercent, hdollar, hhash, hlow, hopen, hclose, htilde, hcaret⟩ := h
  have hopen' : c.toNat ≠ 0x7b := fun heq => hopen (Char.toNat_inj.mp heq)
  have hclose' : c.toNat ≠ 0x7d := fun heq => hclose (Char.toNat_inj.mp heq)
  constructor
  · rw [commandFor?, if_neg hback, if_neg htilde, if_neg hcaret]
  · simp [isBackslashed, hand, hpercent, hdollar, hhash, hlow, hopen', hclose']

/-- **Every character is escaped to a form that prints it.** -/
theorem prints_escapeChar (c : Char) : Prints c (escapeChar c) := by
  by_cases h : c ∈ specialForms.map Prod.fst
  · obtain ⟨⟨c, form⟩, hmem, rfl⟩ := List.mem_map.mp h
    have hform : ∀ entry ∈ specialForms, escapeChar entry.1 = entry.2.toList := by decide
    rw [hform _ hmem]
    exact .special hmem
  · obtain ⟨hcommand, hback⟩ := commandFor?_eq_none_of_plain h
    rw [escapeChar_of_plain hcommand hback]
    exact .plain h

theorem Prints.length_pos (h : Prints c form) : 0 < form.length := by
  cases h with
  | plain => exact Nat.one_pos
  | special h =>
    have hlength : ∀ entry ∈ specialForms, 0 < entry.2.toList.length := by decide
    exact hlength _ h

/-- **The first form of a text shows where it ends**, whatever follows it. -/
theorem unescapeFirst?_append (h : Prints c form) (rest : List Char) :
    unescapeFirst? (form ++ rest) = some (c, form.length) := by
  cases h with
  | plain h =>
    obtain ⟨hcommand, hback⟩ := commandFor?_eq_none_of_plain h
    have hne : c ≠ '\\' := fun heq => h (heq ▸ List.mem_cons_self)
    rw [List.singleton_append, unescapeFirst?]
    · simp [hcommand, hback]
    · exact hne
  | special h =>
    simp only [specialForms, List.mem_cons, Prod.mk.injEq, List.not_mem_nil, or_false] at h
    -- each of the ten forms is read off its first characters
    rcases h with ⟨rfl, rfl⟩ | ⟨rfl, rfl⟩ | ⟨rfl, rfl⟩ | ⟨rfl, rfl⟩ | ⟨rfl, rfl⟩ | ⟨rfl, rfl⟩ |
      ⟨rfl, rfl⟩ | ⟨rfl, rfl⟩ | ⟨rfl, rfl⟩ | ⟨rfl, rfl⟩ <;> rfl

/-- A character with a backslash of its own has no command. -/
theorem escapeChar_of_isBackslashed (h : isBackslashed c = true) : escapeChar c = ['\\', c] := by
  have hne : ∀ c' : Char, isBackslashed c' = false → c ≠ c' := fun c' hc' heq => by
    rw [heq, hc'] at h
    cases h
  have hcommand : commandFor? c = none := by
    rw [commandFor?, if_neg (hne _ rfl), if_neg (hne _ rfl), if_neg (hne _ rfl)]
  rw [escapeChar, hcommand]
  exact if_pos h

/-- **What is read as a form is one.** -/
theorem exists_append_of_unescapeFirst? {s : List Char} {taken : ℕ}
    (h : unescapeFirst? s = some (c, taken)) : s = escapeChar c ++ s.drop taken := by
  suffices hprefix : escapeChar c <+: s ∧ taken = (escapeChar c).length by
    obtain ⟨⟨rest, rfl⟩, rfl⟩ := hprefix
    rw [List.drop_left]
  rw [unescapeFirst?.eq_def] at h
  split at h
  · cases h
  · rename_i rest
    split at h
    · rename_i hfind
      obtain ⟨rfl, rfl⟩ := Prod.mk.inj (Option.some.inj h)
      have hfound := List.find?_some hfind
      exact ⟨List.isPrefixOf_iff_prefix.mp hfound, rfl⟩
    · split at h
      · split at h
        · rename_i hback
          obtain ⟨rfl, rfl⟩ := Prod.mk.inj (Option.some.inj h)
          rw [escapeChar_of_isBackslashed hback]
          exact ⟨List.prefix_append ['\\', _] _, rfl⟩
        · cases h
      · cases h
  · split at h
    · cases h
    · rename_i hplain
      obtain ⟨rfl, rfl⟩ := Prod.mk.inj (Option.some.inj h)
      obtain ⟨hback, hcommand⟩ := not_or.mp (mt Bool.or_eq_true_iff.mpr hplain)
      rw [escapeChar_of_plain (by simpa using hcommand) (by simpa using hback)]
      exact ⟨List.prefix_append [_] _, rfl⟩

end Forms

/-! ### Texts -/

section Texts

variable {s t : List Char}

theorem escapeChars_cons (c : Char) (s : List Char) :
    escapeChars (c :: s) = escapeChar c ++ escapeChars s := List.flatMap_cons

/-- A text is not longer than what it is escaped to. -/
theorem length_le_length_escapeChars (s : List Char) : s.length ≤ (escapeChars s).length := by
  induction s with
  | nil => exact le_rfl
  | cons c s ih =>
    have hform := (prints_escapeChar c).length_pos
    rw [escapeChars_cons, List.length_append, List.length_cons]
    omega

/-- Form by form, an escaped text is read as its text. -/
theorem unescapeUpTo_escapeChars {fuel : ℕ} (h : s.length ≤ fuel) :
    unescapeUpTo fuel (escapeChars s) = some s := by
  induction s generalizing fuel with
  | nil => cases fuel <;> rfl
  | cons c s ih =>
    obtain ⟨fuel, rfl⟩ := Nat.exists_eq_succ_of_ne_zero (Nat.ne_zero_of_lt h)
    have hfirst := unescapeFirst?_append (prints_escapeChar c) (escapeChars s)
    rw [escapeChars_cons, unescapeUpTo, hfirst]
    · simp only [List.drop_left, ih (Nat.le_of_succ_le_succ h), Option.map_some]
    · intro hnil
      have hform := (prints_escapeChar c).length_pos
      simp_all

/-- Only an escaped text is read to its end. -/
theorem eq_escapeChars_of_unescapeUpTo {fuel : ℕ} (h : unescapeUpTo fuel t = some s) :
    t = escapeChars s := by
  induction fuel generalizing t s with
  | zero =>
    cases t with
    | nil =>
      obtain rfl := Option.some.inj h
      rfl
    | cons => cases h
  | succ fuel ih =>
    cases t with
    | nil =>
      obtain rfl := Option.some.inj h
      rfl
    | cons c t =>
      rw [unescapeUpTo] at h
      · cases hfirst : unescapeFirst? (c :: t) with
        | none => simp [hfirst] at h
        | some first =>
          obtain ⟨c', taken⟩ := first
          simp only [hfirst, Option.map_eq_some_iff] at h
          obtain ⟨s', hrest, rfl⟩ := h
          rw [escapeChars_cons, ← ih hrest]
          exact exists_append_of_unescapeFirst? hfirst
      · simp

/-- **What an escaped text is read as is its text**, and no other text is read. -/
theorem unescape?_eq_some_iff : unescape? t = some s ↔ t = escapeChars s := by
  constructor
  · exact eq_escapeChars_of_unescapeUpTo
  · rintro rfl
    exact unescapeUpTo_escapeChars (length_le_length_escapeChars s)

theorem toList_escape (s : String) : (escape s).toList = escapeChars s.toList :=
  String.toList_ofList

/-- **Escaping is a code.** What a text is escaped to is a sequence of forms, one for each of its
characters, so that what LaTeX acts on stands in it only inside the form of some character. It
is read as that text, and nothing else is read as it; so texts that are escaped to the same text
are the same. Texts are escaped piece by piece. -/
theorem escape_is_code :
    (∀ s : String, ∃ forms : List (List Char),
        List.Forall₂ Prints s.toList forms ∧ (escape s).toList = forms.flatten) ∧
      (∀ (s : String) (t : List Char), unescape? t = some s.toList ↔ t = (escape s).toList) ∧
      Function.Injective escape ∧
      ∀ s t : String, escape (s ++ t) = escape s ++ escape t := by
  refine ⟨fun s => ⟨s.toList.map escapeChar, ?_, ?_⟩, fun s t => ?_, fun s t h => ?_, fun s t => ?_⟩
  · rw [List.forall₂_map_right_iff]
    exact List.forall₂_same.mpr fun c _ => prints_escapeChar c
  · rw [toList_escape, escapeChars, List.flatMap_def]
  · rw [unescape?_eq_some_iff, toList_escape]
  · have hread : unescape? (escape s).toList = some t.toList := by
      rw [h, unescape?_eq_some_iff, toList_escape]
    rw [unescape?_eq_some_iff.mpr (toList_escape s)] at hread
    exact String.toList_inj.mp (Option.some.inj hread)
  · rw [← String.toList_inj, String.toList_append]
    simp only [toList_escape, String.toList_append, escapeChars, List.flatMap_append]

end Texts

end BenchReport.LongTable
