import Mathlib
import BenchReport.Proofs.Text.Integer
import BenchReport.Text.Thousands

/-!
# What grouping by thousands gives

Grouping goes through a text from the left and asks at each character how many there are
behind it. What comes of this is said from the right: every group but the first has three
characters, and the first has what is left for it, but never nothing
(`BenchReport.Text.IsGrouped`). A text can be cut into groups in one way only, so this is all
there is to say (`BenchReport.Text.isGrouped_iff`).

The induction is on the groups and not on the characters: a group is passed as a whole
(`BenchReport.Text.groupThousands_append`), and a comma is put behind it exactly if there is
another one.
-/

namespace BenchReport.Text

/-- **A text with a comma between its groups**: a group of at most three characters, and groups
of three behind it. -/
inductive IsGrouped : List Char → List Char → Prop
  /-- The groups of a text are put together without commas in one place and with commas in the
  other. -/
  | groups {first : List Char} {rest : List (List Char)} (hne : first ≠ [])
      (hle : first.length ≤ 3) (hrest : ∀ group ∈ rest, group.length = 3) :
      IsGrouped (first ++ rest.flatten) (first ++ rest.flatMap (',' :: ·))

section Groups

variable {s grouped : List Char}

/-- **A group is passed as a whole**, with a comma behind it if the text goes on. -/
theorem groupThousands_append {first t : List Char} (hne : first ≠ []) (hle : first.length ≤ 3)
    (ht : t.length % 3 = 0) :
    groupThousands (first ++ t) =
      first ++ if t.isEmpty then [] else ',' :: groupThousands t := by
  induction first with
  | nil => exact absurd rfl hne
  | cons c s ih =>
    rw [List.length_cons] at hle
    rw [List.cons_append, groupThousands]
    cases s with
    | nil =>
      -- the last character of the group is the one with whole groups behind it
      rw [List.nil_append, ht]
      cases t with
      | nil => rfl
      | cons d t => rfl
    | cons d s =>
      have hplace : (d :: s ++ t).length % 3 ≠ 0 := by
        rw [List.length_append]
        rw [List.length_cons] at hle ⊢
        omega
      rw [decide_eq_false hplace, Bool.false_and, if_neg Bool.false_ne_true,
        ih (List.cons_ne_nil d s) (by omega)]
      rfl

theorem length_flatten_of_groups {rest : List (List Char)} (h : ∀ group ∈ rest, group.length = 3) :
    rest.flatten.length % 3 = 0 := by
  induction rest with
  | nil => rfl
  | cons group rest ih =>
    have hrest := ih fun g hg => h g (List.mem_cons_of_mem _ hg)
    rw [List.flatten_cons, List.length_append, h group (by simp)]
    omega

/-- **Groups come out of grouping as they went in**, with commas between them. -/
theorem IsGrouped.groupThousands_eq (h : IsGrouped s grouped) : grouped = groupThousands s := by
  obtain @⟨first, rest, hne, hle, hrest⟩ := h
  induction rest generalizing first with
  | nil => rw [groupThousands_append hne hle rfl, List.flatMap_nil, List.flatten_nil]; rfl
  | cons group rest ih =>
    have hgroup : group.length = 3 := hrest group (by simp)
    have hgroup_ne : group ≠ [] := List.ne_nil_of_length_pos (by omega)
    have hlater : ∀ g ∈ rest, g.length = 3 := fun g hg => hrest g (List.mem_cons_of_mem _ hg)
    have hmore : (group ++ rest.flatten).isEmpty = false := by simp [hgroup_ne]
    rw [groupThousands_append hne hle (length_flatten_of_groups hrest), List.flatten_cons,
      hmore, ← ih hgroup_ne hgroup.le hlater, List.flatMap_cons]
    rfl

/-- Every text but the empty one has groups. -/
theorem exists_isGrouped (hs : s ≠ []) : ∃ grouped, IsGrouped s grouped := by
  induction hlength : s.length using Nat.strong_induction_on generalizing s with
  | _ n ih =>
    by_cases hle : s.length ≤ 3
    · have hsingle := @IsGrouped.groups s [] hs hle (by simp)
      rw [List.flatten_nil, List.append_nil] at hsingle
      exact ⟨_, hsingle⟩
    · -- the last three characters are a group of their own
      have hinit : s.take (s.length - 3) ≠ [] :=
        List.ne_nil_of_length_pos (by rw [List.length_take]; omega)
      obtain ⟨_, hgroups⟩ := ih _ (by rw [List.length_take]; omega) hinit rfl
      generalize hinit_eq : s.take (s.length - 3) = t at hgroups
      obtain @⟨first, rest, hne, hfirst, hrest⟩ := hgroups
      have hlast : (s.drop (s.length - 3)).length = 3 := by rw [List.length_drop]; omega
      have hall : ∀ g ∈ rest ++ [s.drop (s.length - 3)], g.length = 3 := by
        intro g hg
        rcases List.mem_append.mp hg with hg | hg
        · exact hrest g hg
        · exact List.mem_singleton.mp hg ▸ hlast
      have hgroups := IsGrouped.groups hne hfirst hall
      rw [List.flatten_concat, ← List.append_assoc, ← hinit_eq, List.take_append_drop] at hgroups
      exact ⟨_, hgroups⟩

/-- **Grouping puts commas between the groups**, and there is no other way to group a text. -/
theorem isGrouped_iff : IsGrouped s grouped ↔ s ≠ [] ∧ grouped = groupThousands s := by
  constructor
  · intro h
    refine ⟨?_, h.groupThousands_eq⟩
    obtain ⟨hne, -, -⟩ := h
    exact List.append_ne_nil_of_left_ne_nil hne _
  · rintro ⟨hne, rfl⟩
    obtain ⟨grouped, h⟩ := exists_isGrouped hne
    exact h.groupThousands_eq ▸ h

end Groups

/-! ### Numbers -/

theorem toList_showGrouped (n : ℕ) :
    (showGrouped n).toList = groupThousands (Nat.toDigits 10 n) := by
  rw [showGrouped, String.toList_ofList, Nat.toList_repr]

/-- **The digits of a number are shown in groups of three.** -/
theorem isGrouped_showGrouped (n : ℕ) : IsGrouped (Nat.toDigits 10 n) (showGrouped n).toList :=
  isGrouped_iff.mpr ⟨Nat.toDigits_ne_nil, toList_showGrouped n⟩

/-- **Without the commas a number is shown as ever.** -/
theorem filter_showGrouped (n : ℕ) :
    (showGrouped n).toList.filter (· ≠ ',') = Nat.toDigits 10 n := by
  rw [toList_showGrouped]
  have hcomma : ',' ∉ Nat.toDigits 10 n := notMem_of_isDigit (isDigits_toDigits n).2 (by decide)
  exact filter_groupThousands fun c hc => ne_of_mem_of_not_mem hc hcomma

example : showGrouped 1234567 = "1,234,567" := by decide

end BenchReport.Text
