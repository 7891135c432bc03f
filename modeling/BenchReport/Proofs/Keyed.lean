import Mathlib
import BenchReport.Keyed

/-!
# Filling a keyed list

A table is filled by taking a list of members one by one, each into the entry at its
key. Every entry is then a story of its own: what stands at a key in the end is what
its members, *in the order of the list*, make of what stood there before, and the
members of other keys have no part in it (`BenchReport.Keyed.get?_foldl_insertWith`). The
keys of the table are those of its members (`BenchReport.Keyed.mem_keys_foldl_insertWith`),
in ascending order (`BenchReport.Keyed.sorted_foldl_insertWith`).

Two tables are the same when the same is found in them
(`BenchReport.Keyed.eq_of_get?_eq`). So laws about tables are laws about looking up: in a
table put on top of another the upper one is looked at first
(`BenchReport.Keyed.get?_union`), and a list of members is cut into tables anywhere
(`BenchReport.Keyed.union_append_eq`).
-/

namespace BenchReport.Keyed

variable {κ α β : Type} [Ord κ]

/-! ### Looking up -/

/-- A key before all others is not among them. -/
theorem get?_eq_none_of_lt {key : κ} {entries : List (κ × α)}
    (h : ∀ e ∈ entries, compare key e.1 = .lt) : get? key entries = none := by
  induction entries with
  | nil => rfl
  | cons e entries ih =>
    have hne : compare key e.1 ≠ .eq := by
      rw [h e (by simp)]
      simp
    rw [get?, if_neg hne]
    exact ih fun e' he' => h e' (List.mem_cons_of_mem _ he')

section Lookup

variable [Std.LawfulEqOrd κ] [DecidableEq κ]

theorem get?_cons (key k : κ) (a : α) (entries : List (κ × α)) :
    get? key ((k, a) :: entries) = if key = k then some a else get? key entries := by
  rw [get?]
  exact if_congr Std.LawfulEqOrd.compare_eq_iff_eq rfl rfl

/-- **What is found in a keyed list is what it holds.** -/
theorem get?_eq_some_iff {entries : List (κ × α)} (h : Sorted entries) {key : κ} {a : α} :
    get? key entries = some a ↔ (key, a) ∈ entries := by
  induction entries with
  | nil => simp [get?]
  | cons e entries ih =>
    obtain ⟨k, a'⟩ := e
    obtain ⟨hhead, hrest⟩ := List.pairwise_cons.mp h
    rw [get?_cons, List.mem_cons, Prod.mk.injEq]
    by_cases hk : key = k
    · have hnot : (key, a) ∉ entries := by
        intro hmem
        have hlt : compare k key = .lt := hhead _ hmem
        rw [Std.LawfulEqOrd.compare_eq_iff_eq.mpr hk.symm] at hlt
        cases hlt
      rw [if_pos hk, Option.some.injEq, or_iff_left hnot, and_iff_right hk, eq_comm]
    · rw [if_neg hk, ih hrest]
      simp [hk]

/-- **Altering an entry alters that entry and no other.** -/
theorem get?_alter [Std.TransOrd κ] {key : κ} {f : Option α → α} {entries : List (κ × α)}
    (h : Sorted entries) (k : κ) :
    get? k (alter key f entries) =
      if k = key then some (f (get? key entries)) else get? k entries := by
  induction entries with
  | nil => exact get?_cons k key (f none) []
  | cons e entries ih =>
    obtain ⟨k', a⟩ := e
    obtain ⟨hhead, hrest⟩ := List.pairwise_cons.mp h
    rw [alter]
    split
    · rename_i hlt
      have hnone : get? key ((k', a) :: entries) = none := by
        refine get?_eq_none_of_lt fun e he => ?_
        rcases List.mem_cons.mp he with rfl | he
        · exact hlt
        · exact Std.TransCmp.lt_trans hlt (hhead e he)
      rw [get?_cons, hnone]
    · rename_i heq
      obtain rfl : key = k' := Std.LawfulEqCmp.eq_of_compare heq
      rw [get?_cons, get?_cons, get?_cons, if_pos rfl]
      split <;> rfl
    · rename_i hgt
      have hne : key ≠ k' := by
        intro heq
        rw [Std.LawfulEqOrd.compare_eq_iff_eq.mpr heq] at hgt
        cases hgt
      rw [get?_cons, get?_cons, get?_cons, ih hrest, if_neg hne]
      by_cases hk : k = k'
      · rw [if_pos hk, if_neg (hk ▸ hne.symm), if_pos hk]
      · rw [if_neg hk, if_neg hk]

end Lookup

/-- What comes before something does not come after it. -/
theorem asymm_compare {γ : Type} [Std.TransOrd κ] (key : γ → κ) :
    Std.Asymm fun a b : γ => compare (key a) (key b) = .lt where
  asymm a b hlt hgt := by
    rw [Std.OrientedCmp.gt_of_lt hlt] at hgt
    cases hgt

/-- **A keyed list is known by what is found in it.** -/
theorem eq_of_get?_eq [Std.TransOrd κ] [Std.LawfulEqOrd κ] [DecidableEq κ] {a b : List (κ × α)}
    (ha : Sorted a) (hb : Sorted b) (h : ∀ key, get? key a = get? key b) : a = b := by
  have := asymm_compare (Prod.fst : κ × α → κ)
  refine ha.eq_of_mem_iff hb fun e => ?_
  rw [← get?_eq_some_iff ha, ← get?_eq_some_iff hb, h]

/-! ### Members taken in one by one -/

section Fill

variable [Std.LawfulEqOrd κ] {key : β → κ} {init : α} {step : α → β → α}

/-- The keys stay in order. -/
theorem sorted_foldl_insertWith [Std.TransOrd κ] {entries : List (κ × α)} (h : Sorted entries)
    (members : List β) : Sorted (members.foldl (insertWith key init step) entries) := by
  induction members generalizing entries with
  | nil => exact h
  | cons b members ih => exact ih (sorted_alter h)

/-- **The keys of the table are those of its members**, besides those it had. -/
theorem mem_keys_foldl_insertWith {entries : List (κ × α)} {members : List β} {k : κ} :
    k ∈ (members.foldl (insertWith key init step) entries).map Prod.fst ↔
      (∃ b ∈ members, key b = k) ∨ k ∈ entries.map Prod.fst := by
  induction members generalizing entries with
  | nil => simp
  | cons b members ih =>
    rw [List.foldl_cons, ih, insertWith, mem_keys_alter]
    simp only [List.mem_cons, exists_eq_or_imp, eq_comm (a := k)]
    rw [or_left_comm, or_assoc]

/-- **What stands at a key is what its members make of it, in their order.** -/
theorem get?_foldl_insertWith [Std.TransOrd κ] [DecidableEq κ] {entries : List (κ × α)}
    (h : Sorted entries) (members : List β) (k : κ) :
    get? k (members.foldl (insertWith key init step) entries) =
      if members.filter (fun b => key b = k) = [] then get? k entries
      else some ((members.filter fun b => key b = k).foldl step
        ((get? k entries).getD init)) := by
  induction members generalizing entries with
  | nil => simp
  | cons b members ih =>
    have hsorted : Sorted (insertWith key init step entries b) := sorted_alter h
    rw [List.foldl_cons, ih hsorted, insertWith, get?_alter h]
    by_cases hb : key b = k
    · have hfilter : (b :: members).filter (fun b => key b = k) =
          b :: members.filter fun b => key b = k := by simp [hb]
      rw [hfilter, if_pos hb.symm, if_neg (List.cons_ne_nil _ _), List.foldl_cons, hb]
      split
      · rename_i hnil
        rw [hnil]
        rfl
      · rfl
    · have hfilter : (b :: members).filter (fun b => key b = k) =
          members.filter fun b => key b = k := by simp [hb]
      rw [hfilter, if_neg (Ne.symm hb)]

end Fill

/-! ### Members brought together -/

theorem groupBy_cons (key : β → κ) (b : β) (members : List β) :
    groupBy key (b :: members) =
      alter (key b) (fun bs => b :: bs.getD []) (groupBy key members) := rfl

/-- Grouping gives the keys of the members, and no others. -/
theorem mem_keys_groupBy [Std.LawfulEqOrd κ] {key : β → κ} {members : List β} {k : κ} :
    k ∈ (groupBy key members).map Prod.fst ↔ ∃ b ∈ members, key b = k := by
  induction members with
  | nil => simp [groupBy]
  | cons b members ih =>
    rw [groupBy_cons, mem_keys_alter, ih, List.exists_mem_cons_iff]
    exact or_congr_left eq_comm

/-- **Every key has its members, in the order of the list.** -/
theorem get?_groupBy [Std.TransOrd κ] [Std.LawfulEqOrd κ] [DecidableEq κ] (key : β → κ)
    (members : List β) (k : κ) :
    (get? k (groupBy key members)).getD [] = members.filter fun b => key b = k := by
  induction members with
  | nil => rfl
  | cons b members ih =>
    rw [groupBy_cons, get?_alter (sorted_groupBy key members)]
    by_cases hb : k = key b
    · rw [if_pos hb, List.filter_cons_of_pos (by simp [hb]), ← ih, hb]
      rfl
    · rw [if_neg hb, ih, List.filter_cons_of_neg (by simpa using Ne.symm hb)]

/-- **Behind every key of a grouping are its members**, in the order of the list. -/
theorem groupBy_eq_map [Std.TransOrd κ] [Std.LawfulEqOrd κ] [DecidableEq κ] (key : β → κ)
    (members : List β) :
    groupBy key members =
      ((groupBy key members).map Prod.fst).map fun k => (k, members.filter fun b => key b = k) := by
  have hentry : ∀ entry ∈ groupBy key members,
      entry = (entry.1, members.filter fun b => key b = entry.1) := fun entry hentry => by
    have hget := (get?_eq_some_iff (sorted_groupBy key members)).mpr hentry
    rw [← get?_groupBy, hget, Option.getD_some]
  rw [List.map_map]
  conv_lhs => rw [← List.map_id (groupBy key members)]
  exact List.map_congr_left hentry

/-! ### Tables put together -/

section Union

variable [Std.TransOrd κ] [Std.LawfulEqOrd κ]

theorem sorted_put {entries : List (κ × α)} (h : Sorted entries) (key : κ) (a : α) :
    Sorted (put key a entries) :=
  sorted_alter h

theorem sorted_union {first : List (κ × α)} (h : Sorted first) (entries : List (κ × α)) :
    Sorted (union first entries) := by
  induction entries generalizing first with
  | nil => exact h
  | cons e entries ih => exact ih (sorted_put h e.1 e.2)

variable [DecidableEq κ]

theorem get?_put {entries : List (κ × α)} (h : Sorted entries) (key : κ) (a : α) (k : κ) :
    get? k (put key a entries) = if k = key then some a else get? k entries :=
  get?_alter h k

/-- **In a table put on top of another the upper one is looked at first.** -/
theorem get?_union {first second : List (κ × α)} (hfirst : Sorted first) (hsecond : Sorted second)
    (key : κ) : get? key (union first second) = (get? key second).or (get? key first) := by
  induction second generalizing first with
  | nil => rfl
  | cons e second ih =>
    obtain ⟨hhead, htail⟩ := List.pairwise_cons.mp hsecond
    have hput : union first (e :: second) = union (put e.1 e.2 first) second := rfl
    rw [hput, ih (sorted_put hfirst e.1 e.2) htail, get?_put hfirst, get?_cons]
    by_cases hkey : key = e.1
    · have hnone : get? key second = none := get?_eq_none_of_lt (hkey ▸ hhead)
      rw [if_pos hkey, if_pos hkey, hnone]
      rfl
    · rw [if_neg hkey, if_neg hkey]

/-- What is put into a table is looked at before what the table held. -/
theorem get?_union_eq {first : List (κ × α)} (h : Sorted first) (entries : List (κ × α))
    (key : κ) :
    get? key (union first entries) = (get? key (union [] entries)).or (get? key first) := by
  induction entries using List.reverseRecOn with
  | nil => rfl
  | append_singleton entries e ih =>
    have hput : ∀ table : List (κ × α),
        union table (entries ++ [e]) = put e.1 e.2 (union table entries) :=
      fun _ => List.foldl_concat ..
    have hempty : Sorted ([] : List (κ × α)) := List.Pairwise.nil
    rw [hput, hput, get?_put (sorted_union h entries), get?_put (sorted_union hempty entries)]
    split
    · rfl
    · exact ih

/-- **Entries put into a table one by one are a table put on top of it.** -/
theorem union_append_eq (xs ys : List (κ × α)) :
    union [] (xs ++ ys) = union (union [] xs) (union [] ys) := by
  have hempty : Sorted ([] : List (κ × α)) := List.Pairwise.nil
  have hxs : Sorted (union [] xs) := sorted_union hempty xs
  have hsplit : union [] (xs ++ ys) = union (union [] xs) ys := List.foldl_append
  refine eq_of_get?_eq (sorted_union hempty _) (sorted_union hxs _) fun key => ?_
  rw [hsplit, get?_union_eq hxs, get?_union hxs (sorted_union hempty ys)]

end Union

/-! ### Nothing is lost -/

section Weight

variable {key : β → κ} {init : α} {step : α → β → α} {weight : α → Nat}

/-- A member adds its weight at one key. -/
theorem sum_insertWith (hinit : weight init = 0)
    (hstep : ∀ a b, weight (step a b) = weight a + 1) (entries : List (κ × α)) (b : β) :
    ((insertWith key init step entries b).map fun e => weight e.2).sum =
      (entries.map fun e => weight e.2).sum + 1 := by
  rw [insertWith]
  induction entries with
  | nil => simp [alter, hinit, hstep]
  | cons e entries ih =>
    obtain ⟨k, a⟩ := e
    rw [alter]
    split
    · simp [hinit, hstep, Nat.add_comm]
    · simp [hstep, Nat.add_right_comm]
    · simp [ih, Nat.add_assoc]

/-- **Every member is counted in one entry.** -/
theorem sum_foldl_insertWith (hinit : weight init = 0)
    (hstep : ∀ a b, weight (step a b) = weight a + 1) (members : List β)
    (entries : List (κ × α)) :
    ((members.foldl (insertWith key init step) entries).map fun e => weight e.2).sum =
      (entries.map fun e => weight e.2).sum + members.length := by
  induction members generalizing entries with
  | nil => rfl
  | cons b members ih =>
    rw [List.foldl_cons, ih, sum_insertWith hinit hstep, List.length_cons, Nat.add_assoc,
      Nat.add_comm 1]

end Weight

end BenchReport.Keyed
