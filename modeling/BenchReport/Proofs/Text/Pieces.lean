import Mathlib

/-!
# Pieces between separators

Words, runs of digits and the entries of a list are the same thing for different
separators: what stands between them, pieces without a character left out
(`BenchReport.Text.pieces`). Cutting begins anew at every separator
(`BenchReport.Text.pieces_append_cons`), so separators at the ends of a text make no
difference, and two kinds of separators give the same pieces of a text as soon as they
agree on its characters (`BenchReport.Text.pieces_congr`). Nothing but separators is lost
(`BenchReport.Text.flatten_pieces`).
-/

namespace BenchReport.Text

variable {α : Type}

/-- The pieces between separators that are not empty, in order. -/
def pieces (sep : α → Bool) (s : List α) : List (List α) :=
  (s.splitOnP sep).filter fun piece => !piece.isEmpty

section Pieces

variable {sep sep' : α → Bool}

/-- A separator divides the pieces of a text. -/
theorem pieces_append_cons (s : List α) {a : α} (ha : sep a = true) (t : List α) :
    pieces sep (s ++ a :: t) = pieces sep s ++ pieces sep t := by
  rw [pieces, List.splitOnP_append_cons s t ha, List.filter_append]
  rfl

theorem pieces_cons (a : α) (ha : sep a = true) (t : List α) :
    pieces sep (a :: t) = pieces sep t :=
  pieces_append_cons [] ha t

theorem pieces_eq_nil {s : List α} (hs : ∀ a ∈ s, sep a = true) : pieces sep s = [] := by
  induction s with
  | nil => rfl
  | cons a s ih =>
    rw [pieces_cons a (hs a (by simp)), ih fun b hb => hs b (List.mem_cons_of_mem _ hb)]

/-- **Separators around a text add no pieces.** -/
theorem pieces_surrounded {l r : List α} (s : List α) (hl : ∀ a ∈ l, sep a = true)
    (hr : ∀ a ∈ r, sep a = true) : pieces sep (l ++ s ++ r) = pieces sep s := by
  have hright : pieces sep (s ++ r) = pieces sep s := by
    cases r with
    | nil => rw [List.append_nil]
    | cons a r =>
      have hnil : pieces sep r = [] := pieces_eq_nil fun b hb => hr b (List.mem_cons_of_mem _ hb)
      rw [pieces_append_cons s (hr a (by simp)), hnil, List.append_nil]
  rw [List.append_assoc, ← hright]
  induction l with
  | nil => rfl
  | cons a l ih =>
    rw [List.cons_append, pieces_cons a (hl a (by simp)),
      ih fun b hb => hl b (List.mem_cons_of_mem _ hb)]

/-- **Only the characters of the text decide how it is cut.** -/
theorem pieces_congr {s : List α} (h : ∀ a ∈ s, sep a = sep' a) : pieces sep s = pieces sep' s := by
  have hsplit : s.splitOnP sep = s.splitOnP sep' := by
    induction s with
    | nil => rfl
    | cons a s ih =>
      rw [List.splitOnP_cons_eq_if_modifyHead, List.splitOnP_cons_eq_if_modifyHead,
        h a (by simp), ih fun b hb => h b (List.mem_cons_of_mem _ hb)]
  rw [pieces, hsplit]
  rfl

/-- **Put together, the pieces are the text without its separators.** -/
theorem flatten_pieces (sep : α → Bool) (s : List α) :
    (pieces sep s).flatten = s.filter fun a => !sep a := by
  rw [pieces, List.flatten_filter_not_isEmpty]
  induction s with
  | nil => rfl
  | cons a s ih =>
    obtain ⟨first, others, hs⟩ := List.exists_cons_of_ne_nil (List.splitOnP_ne_nil sep s)
    rw [hs, List.flatten_cons] at ih
    rw [List.splitOnP_cons_eq_if_modifyHead, hs, List.modifyHead_cons]
    cases ha : sep a with
    | true => rw [if_pos rfl, List.filter_cons_of_neg (by simp [ha]), ← ih]; rfl
    | false => rw [if_neg (by simp), List.filter_cons_of_pos (by simp [ha]), ← ih]; rfl

/-- What stands in a piece stands in the text, and no separator does. -/
theorem mem_of_mem_pieces {s piece : List α} (h : piece ∈ pieces sep s) {a : α} (ha : a ∈ piece) :
    a ∈ s ∧ sep a = false := by
  have hmem := List.mem_flatten.mpr ⟨piece, h, ha⟩
  rw [flatten_pieces, List.mem_filter] at hmem
  exact ⟨hmem.1, by simpa using hmem.2⟩

/-- **Every element is a separator or stands in a piece.** -/
theorem exists_mem_pieces {s : List α} {a : α} (ha : a ∈ s) (hsep : sep a = false) :
    ∃ piece ∈ pieces sep s, a ∈ piece := by
  rw [← List.mem_flatten, flatten_pieces, List.mem_filter]
  exact ⟨ha, by simp [hsep]⟩

end Pieces

end BenchReport.Text
