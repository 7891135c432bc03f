import Mathlib
import BenchReport.Text.Split

/-!
# Where a cut falls

The readers of this library never go back: they take a run of characters as long as
it lasts, and cut at the first separator. What they find is therefore settled by
what stands *behind* the piece they take. This file says so for each of the cuts,
in the shape in which a grammar is checked against them: a text that is put together
from pieces is cut into the same pieces, provided no piece can run into the next.

| cut | what fixes it | theorem |
|---|---|---|
| a run of one class | the next character is outside the class | `BenchReport.Text.takeWhile_append_stop` |
| at every separator | no piece holds a separator | `BenchReport.Text.splitOn_eq` |
| at the first element of a kind | none stands before it | `BenchReport.Text.cutAt?_eq_some_iff` |
| at the first occurrence of a sequence | none begins before it | `BenchReport.Text.cutAtSeq?_eq_some_iff` |
-/

namespace BenchReport.Text

variable {α : Type}

/-! ### Runs -/

section Runs

variable {p : α → Bool} {s rest : List α}

/-- A run ends where the next element is outside the class. -/
theorem takeWhile_append_stop (hs : ∀ a ∈ s, p a = true) (hrest : ∀ a ∈ rest.head?, p a = false) :
    (s ++ rest).takeWhile p = s := by
  rw [List.takeWhile_append_of_pos hs]
  cases rest with
  | nil => simp
  | cons a rest => simp [hrest a rfl]

/-- What stands behind a run is left over whole. -/
theorem dropWhile_append_stop (hs : ∀ a ∈ s, p a = true) (hrest : ∀ a ∈ rest.head?, p a = false) :
    (s ++ rest).dropWhile p = rest := by
  rw [List.dropWhile_append_of_pos hs]
  cases rest with
  | nil => rfl
  | cons a rest => simp [hrest a rfl]

/-- Behind a run stands an element outside the class, or nothing. -/
theorem head?_dropWhile (p : α → Bool) (s : List α) : ∀ a ∈ (s.dropWhile p).head?, p a = false := by
  intro a ha
  have h := List.head?_dropWhile_not p s
  rw [Option.mem_def.mp ha] at h
  exact h

/-- Every list is a run with something outside the class behind it. -/
theorem exists_run (p : α → Bool) (l : List α) :
    ∃ s rest, l = s ++ rest ∧ (∀ a ∈ s, p a = true) ∧ ∀ a ∈ rest.head?, p a = false :=
  ⟨l.takeWhile p, l.dropWhile p, List.takeWhile_append_dropWhile.symm,
    fun _ ha => List.mem_takeWhile_imp ha, head?_dropWhile p l⟩

end Runs

/-! ### Every separator -/

/-- The pieces are those of the library's own cut. -/
theorem splitOn_eq [BEq α] (sep : α) (s : List α) : splitOn sep s = s.splitOn sep := by
  induction s with
  | nil => rfl
  | cons a s ih =>
    rw [List.splitOn_cons_eq_if_modifyHead, ← ih]
    by_cases h : (a == sep) = true <;> simp [splitOn, h]

/-- Texts that agree and are cut at their first separators agree on both sides of it. -/
theorem append_cons_inj_of_notMem [BEq α] [LawfulBEq α] {sep : α} {a a' b b' : List α}
    (ha : sep ∉ a) (ha' : sep ∉ a') (h : a ++ sep :: b = a' ++ sep :: b') : a = a' ∧ b = b' := by
  have hpieces := congrArg (List.splitOn sep) h
  rw [List.splitOn_append_cons_self_of_not_mem ha, List.splitOn_append_cons_self_of_not_mem ha',
    List.cons.injEq] at hpieces
  obtain ⟨rfl, -⟩ := hpieces
  simpa using h

/-! ### The first element of a kind -/

theorem cutAt?_eq_some_iff {p : α → Bool} {s a b : List α} :
    cutAt? p s = some (a, b) ↔ ∃ x, s = a ++ x :: b ∧ p x = true ∧ ∀ y ∈ a, p y = false := by
  constructor
  · intro h
    obtain ⟨before, behind, rfl, hbefore, hbehind⟩ := exists_run (fun y => !p y) s
    rw [cutAt?, dropWhile_append_stop hbefore hbehind, takeWhile_append_stop hbefore hbehind] at h
    cases behind with
    | nil => cases h
    | cons x rest =>
      simp only [Option.some.injEq, Prod.mk.injEq] at h
      obtain ⟨rfl, rfl⟩ := h
      exact ⟨x, rfl, by simpa using hbehind, fun y hy => by simpa using hbefore y hy⟩
  · rintro ⟨x, rfl, hx, ha⟩
    have hrun : ∀ y ∈ a, (!p y) = true := fun y hy => by simp [ha y hy]
    have hstop : ∀ y ∈ (x :: b).head?, (!p y) = false := by simp [hx]
    rw [cutAt?, dropWhile_append_stop hrun hstop, takeWhile_append_stop hrun hstop]

theorem cutAt?_eq_none_iff {p : α → Bool} {s : List α} :
    cutAt? p s = none ↔ ∀ y ∈ s, p y = false := by
  constructor
  · intro h
    obtain ⟨before, behind, rfl, hbefore, hbehind⟩ := exists_run (fun y => !p y) s
    rw [cutAt?, dropWhile_append_stop hbefore hbehind, takeWhile_append_stop hbefore hbehind] at h
    cases behind with
    | nil => simpa using hbefore
    | cons x rest => cases h
  · intro h
    rw [cutAt?, List.dropWhile_eq_nil_iff.mpr fun y hy => by simp [h y hy]]

/-! ### The first occurrence of a sequence -/

section Sequence

variable [BEq α] [LawfulBEq α] {sep : List α}

/-- **The search for a sequence stops at its first occurrence.** The elements passed
so far stand before all that the rest of the search finds. -/
theorem cutAtSeqFrom_eq_some_iff {before s x b : List α} :
    cutAtSeqFrom sep before s = some (x, b) ↔
      ∃ a, x = before.reverse ++ a ∧ s = a ++ sep ++ b ∧
        ∀ a' b', s = a' ++ sep ++ b' → a.length ≤ a'.length := by
  induction s generalizing before with
  | nil =>
    rw [cutAtSeqFrom]
    constructor
    · intro h
      split at h
      · rename_i hsep
        simp only [Option.some.injEq, Prod.mk.injEq] at h
        obtain ⟨rfl, rfl⟩ := h
        exact ⟨[], by simp, by simp [List.isEmpty_iff.mp hsep], fun _ _ _ => Nat.zero_le _⟩
      · cases h
    · rintro ⟨a, rfl, h, -⟩
      simp only [List.nil_eq, List.append_eq_nil_iff] at h
      obtain ⟨⟨rfl, rfl⟩, rfl⟩ := h
      simp
  | cons c s ih =>
    rw [cutAtSeqFrom]
    by_cases hsep : sep.isPrefixOf (c :: s) = true
    · obtain ⟨t, ht⟩ := List.isPrefixOf_iff_prefix.mp hsep
      rw [if_pos hsep, ← ht]
      simp only [List.drop_left, Option.some.injEq, Prod.mk.injEq]
      constructor
      · rintro ⟨rfl, rfl⟩
        exact ⟨[], by simp, by simp, fun _ _ _ => Nat.zero_le _⟩
      · rintro ⟨a, rfl, h, hfirst⟩
        have ha : a = [] := List.length_eq_zero_iff.mp (Nat.le_zero.mp (hfirst [] t (by simp)))
        subst ha
        exact ⟨by simp, by simpa using h⟩
    · rw [if_neg hsep, ih]
      constructor
      · rintro ⟨a, rfl, rfl, hfirst⟩
        refine ⟨c :: a, by simp, by simp, fun a' b' h => ?_⟩
        cases a' with
        | nil => exact absurd (List.isPrefixOf_iff_prefix.mpr ⟨b', by simpa using h.symm⟩) hsep
        | cons d a' =>
          have h' := hfirst a' b' (by simpa using (List.cons.inj h).2)
          simpa using h'
      · rintro ⟨a, rfl, h, hfirst⟩
        cases a with
        | nil => exact absurd (List.isPrefixOf_iff_prefix.mpr ⟨b, by simpa using h.symm⟩) hsep
        | cons d a =>
          have hcs : c = d ∧ s = a ++ sep ++ b := by simpa using h
          obtain ⟨rfl, hs⟩ := hcs
          refine ⟨a, by simp, hs, fun a' b' h' => ?_⟩
          have h'' := hfirst (c :: a') b' (by simp [h'])
          simpa using h''

theorem cutAtSeq?_eq_some_iff {s a b : List α} :
    cutAtSeq? sep s = some (a, b) ↔
      s = a ++ sep ++ b ∧ ∀ a' b', s = a' ++ sep ++ b' → a.length ≤ a'.length := by
  simp [cutAtSeq?, cutAtSeqFrom_eq_some_iff]

end Sequence

end BenchReport.Text
