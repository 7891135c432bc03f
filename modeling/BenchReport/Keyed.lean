/-!
# Lists with sorted keys

A **keyed list** holds each key once, in ascending order. It serves where a table
has to come out sorted whatever order its entries came in: the metadata of a report,
the groups of a list of measurements.

One operation builds them all. `BenchReport.Keyed.alter` puts a value at a key, made
from the value that is there already, if any. `BenchReport.Keyed.groupBy` is that
operation folded over a list: it gives every key its members, *in the order of the
list*.
-/

namespace BenchReport.Keyed

variable {κ α β : Type} [Ord κ]

/-- Puts at `key` what `f` makes of the value that is there. -/
def alter (key : κ) (f : Option α → α) : List (κ × α) → List (κ × α)
  | [] => [(key, f none)]
  | (k, a) :: rest =>
    match compare key k with
    | .lt => (key, f none) :: (k, a) :: rest
    | .eq => (key, f (some a)) :: rest
    | .gt => (k, a) :: alter key f rest

/-- Puts a value at a key, in place of the one that is there. -/
def put (key : κ) (a : α) (entries : List (κ × α)) : List (κ × α) :=
  alter key (fun _ => a) entries

/-- Takes a member into the value at its key, which begins as `init`. -/
def insertWith (key : β → κ) (init : α) (step : α → β → α) (entries : List (κ × α)) (b : β) :
    List (κ × α) :=
  alter (key b) (fun a => step (a.getD init) b) entries

/-- The value at a key. -/
def get? (key : κ) : List (κ × α) → Option α
  | [] => none
  | (k, a) :: rest => if compare key k = .eq then some a else get? key rest

/-- Both lists' entries; where both have a key, the second list's value stays. -/
def union (first second : List (κ × α)) : List (κ × α) :=
  second.foldl (fun entries entry => put entry.1 entry.2 entries) first

/-- Every key of the list with its members, in the order of the list. -/
def groupBy (key : β → κ) (members : List β) : List (κ × List β) :=
  members.foldr (fun b groups => alter (key b) (fun bs => b :: bs.getD []) groups) []

/-- A keyed list: its keys ascend, so none comes twice. -/
def Sorted (entries : List (κ × α)) : Prop :=
  entries.Pairwise fun a b => compare a.1 b.1 = .lt

/-! ### What `alter` does -/

theorem mem_keys_alter [Std.LawfulEqOrd κ] {key k : κ} {f : Option α → α}
    {entries : List (κ × α)} :
    k ∈ (alter key f entries).map Prod.fst ↔ k = key ∨ k ∈ entries.map Prod.fst := by
  induction entries with
  | nil => simp [alter]
  | cons entry rest ih =>
    obtain ⟨k', a⟩ := entry
    unfold alter
    split
    · simp
    · rename_i heq
      have hkey : key = k' := Std.LawfulEqCmp.eq_of_compare heq
      simp [hkey]
    · simp only [List.map_cons, List.mem_cons, ih]
      grind

theorem sorted_alter [Std.TransOrd κ] [Std.LawfulEqOrd κ] {key : κ} {f : Option α → α}
    {entries : List (κ × α)} (h : Sorted entries) : Sorted (alter key f entries) := by
  induction entries with
  | nil => simp [alter, Sorted]
  | cons entry rest ih =>
    obtain ⟨k', a⟩ := entry
    have hrest : Sorted rest := (List.pairwise_cons.1 h).2
    have hhead : ∀ e ∈ rest, compare k' e.1 = .lt := (List.pairwise_cons.1 h).1
    unfold alter
    split
    · rename_i hlt
      refine List.pairwise_cons.2 ⟨fun e he => ?_, h⟩
      rcases List.mem_cons.1 he with rfl | he
      · exact hlt
      · exact Std.TransCmp.lt_trans hlt (hhead e he)
    · rename_i heq
      obtain rfl : key = k' := Std.LawfulEqCmp.eq_of_compare heq
      exact List.pairwise_cons.2 ⟨hhead, hrest⟩
    · rename_i hgt
      refine List.pairwise_cons.2 ⟨fun e he => ?_, ih hrest⟩
      have hmem : e.1 ∈ (alter key f rest).map Prod.fst := List.mem_map_of_mem he
      rcases mem_keys_alter.1 hmem with hk | hk
      · rw [hk]
        exact Std.OrientedCmp.lt_of_gt hgt
      · obtain ⟨e', he', hk'⟩ := List.mem_map.1 hk
        exact hk' ▸ hhead e' he'

/-- Grouping gives a keyed list. -/
theorem sorted_groupBy [Std.TransOrd κ] [Std.LawfulEqOrd κ] (key : β → κ) (members : List β) :
    Sorted (groupBy key members) := by
  induction members with
  | nil => simp [groupBy, Sorted]
  | cons b members ih => exact sorted_alter ih

end BenchReport.Keyed
