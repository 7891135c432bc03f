import Mathlib
import BenchReport.Pipeline
import BenchReport.Proofs.Keyed

/-!
# One outcome for every group

Rates are derived group by group, and the outcomes are then sorted into two lists, the
derived rates and the skipped groups. What a table says of a group is therefore spread
over both lists; `BenchReport.RateTable.outcomesAt` gathers it.

A table made from outcomes with ascending keys says of every key just what the outcome
at that key is (`BenchReport.RateTable.outcomesAt_table`): the two lists together hold
every key once (`BenchReport.RateTable.perm_keys_table`), and each of them is in the
order of the outcomes. One thing must be known of the outcomes for that, that rates are
found at the key they name (`BenchReport.Rate.NamesItsKey`).
-/

namespace BenchReport

/-! ### A rule for every group -/

namespace Rate

/-- The outcomes of groups, each at its key. -/
abbrev Outcomes := List (GroupKey × Except SkipReason DerivedRates)

theorem bind_eq_ok_iff {ε α β : Type} {x : Except ε α} {f : α → Except ε β} {b : β} :
    x >>= f = .ok b ↔ ∃ a, x = .ok a ∧ f a = .ok b := by
  cases x with
  | error e => exact iff_of_false nofun fun ⟨_, ha, _⟩ => nomatch ha
  | ok a => exact ⟨fun h => ⟨a, rfl, h⟩, fun ⟨_, ha, h⟩ => Except.ok.inj ha ▸ h⟩

theorem bind_eq_error_iff {ε α β : Type} {x : Except ε α} {f : α → Except ε β} {e : ε} :
    x >>= f = .error e ↔ x = .error e ∨ ∃ a, x = .ok a ∧ f a = .error e := by
  cases x with
  | error e' =>
    constructor
    · exact fun h => .inl (congrArg Except.error (Except.error.inj h))
    · rintro (h | ⟨_, ha, _⟩)
      · exact congrArg Except.error (Except.error.inj h)
      · cases ha
  | ok a =>
    constructor
    · exact fun h => .inr ⟨a, rfl, h⟩
    · rintro (h | ⟨_, ha, h⟩)
      · cases h
      · exact Except.ok.inj ha ▸ h

/-- **A rule that is applied one by one succeeds where each application does.** -/
theorem mapM_eq_ok_iff {ε α β : Type} {rule : α → Except ε β} {xs : List α} {ys : List β} :
    xs.mapM rule = .ok ys ↔ List.Forall₂ (fun x y => rule x = .ok y) xs ys := by
  induction xs generalizing ys with
  | nil => exact ⟨fun h => Except.ok.inj h ▸ .nil, fun h => by cases h; rfl⟩
  | cons x xs ih =>
    rw [List.mapM_cons, bind_eq_ok_iff, List.forall₂_cons_left_iff]
    refine exists_congr fun y => ?_
    rw [bind_eq_ok_iff, exists_and_left]
    refine and_congr_right fun _ => exists_congr fun rest => ?_
    rw [ih]
    exact and_congr_right fun _ => ⟨fun h => (Except.ok.inj h).symm, fun h => congrArg _ h.symm⟩

/-- The outcome of a group under a rule, at its key. -/
def ruled (rule : Group → Except MissingLatency (Except SkipReason DerivedRates)) (g : Group) :
    Except MissingLatency (GroupKey × Except SkipReason DerivedRates) :=
  (rule g).map (Prod.mk g.key)

theorem ruled_eq_ok_iff {rule : Group → Except MissingLatency (Except SkipReason DerivedRates)}
    {g : Group} {entry : GroupKey × Except SkipReason DerivedRates} :
    ruled rule g = .ok entry ↔ entry.1 = g.key ∧ rule g = .ok entry.2 := by
  obtain ⟨key, outcome⟩ := entry
  rw [ruled]
  cases rule g <;> simp [Except.map, eq_comm]

theorem outcomes_eq (config : RateConfig) (groups : List Group) :
    outcomes config groups = groups.mapM (ruled (derive config)) := by
  induction groups with
  | nil => rfl
  | cons g groups ih =>
    rw [outcomes, List.mapM_cons, ih, ruled]
    cases derive config g with
    | error e => rfl
    | ok outcome => cases groups.mapM (ruled (derive config)) <;> rfl

theorem deriveAll_eq (config : RateConfig) (groups : List Group) :
    deriveAll config groups = (groups.mapM (ruled (derive config))).map table := by
  rw [deriveAll, outcomes_eq]
  cases groups.mapM (ruled (derive config)) <;> rfl

end Rate

namespace Pipeline

theorem deriveAll_eq (config : RateConfig) (unitsOf : GroupKey → List ArrivalUnit)
    (groups : List Group) :
    deriveAll config unitsOf groups =
      groups.mapM (Rate.ruled fun g => derive config (unitsOf g.key) g) := by
  induction groups with
  | nil => rfl
  | cons g groups ih =>
    rw [deriveAll, List.mapM_cons, ih, Rate.ruled]
    cases derive config (unitsOf g.key) g with
    | error e => rfl
    | ok outcome =>
      cases groups.mapM (Rate.ruled fun g => derive config (unitsOf g.key) g) <;> rfl

end Pipeline

/-! ### Rates are found at the key they name -/

namespace Rate

/-- An outcome at a key, which if it is rates are those of that key. -/
def NamesItsKey (entry : GroupKey × Except SkipReason DerivedRates) : Prop :=
  ∀ rates, entry.2 = .ok rates → rates.key = entry.1

theorem key_of_ofLatency {config : RateConfig} {key : GroupKey} {latency : Float}
    {rates : DerivedRates} (h : ofLatency config key latency = .ok rates) : rates.key = key := by
  obtain ⟨stream, -, h⟩ := bind_eq_ok_iff.mp h
  split at h
  · cases h
  · obtain ⟨factor, -, h⟩ := bind_eq_ok_iff.mp h
    exact Except.ok.inj h ▸ rfl

/-- **A group's rates are found at its key.** -/
theorem key_of_derive {config : RateConfig} {g : Group} {rates : DerivedRates}
    (h : derive config g = .ok (.ok rates)) : rates.key = g.key := by
  rw [derive] at h
  split at h
  · cases h
  · exact key_of_ofLatency (Except.ok.inj h)

/-! ### The outcomes of a list of groups -/

section Ruled

variable {rule : Group → Except MissingLatency (Except SkipReason DerivedRates)}
  {groups : List Group} {found : Outcomes}

/-- If the rule gives every group an outcome, none is in the way of the others. -/
theorem exists_mapM_ruled (h : ∀ g ∈ groups, ∃ outcome, rule g = .ok outcome) :
    ∃ found, groups.mapM (ruled rule) = .ok found := by
  induction groups with
  | nil => exact ⟨[], rfl⟩
  | cons g groups ih =>
    obtain ⟨⟨outcome, houtcome⟩, hgroups⟩ := List.forall_mem_cons.mp h
    obtain ⟨found, hfound⟩ := ih hgroups
    refine ⟨(g.key, outcome) :: found, mapM_eq_ok_iff.mpr ?_⟩
    exact .cons (ruled_eq_ok_iff.mpr ⟨rfl, houtcome⟩) (mapM_eq_ok_iff.mp hfound)

/-- Rules that agree on the groups give the same outcomes. -/
theorem mapM_ruled_congr {rule' : Group → Except MissingLatency (Except SkipReason DerivedRates)}
    (h : ∀ g ∈ groups, rule g = rule' g) :
    groups.mapM (ruled rule) = groups.mapM (ruled rule') := by
  induction groups with
  | nil => rfl
  | cons g groups ih =>
    obtain ⟨hg, hgroups⟩ := List.forall_mem_cons.mp h
    rw [List.mapM_cons, List.mapM_cons, ih hgroups, ruled, ruled, hg]

theorem keys_of_mapM_ruled (h : groups.mapM (ruled rule) = .ok found) :
    found.map Prod.fst = groups.map Group.key := by
  induction mapM_eq_ok_iff.mp h with
  | nil => rfl
  | cons hentry hrest ih =>
    rw [List.map_cons, List.map_cons, (ruled_eq_ok_iff.mp hentry).1, ih (mapM_eq_ok_iff.mpr hrest)]

/-- Groups in ascending order have outcomes in ascending order. -/
theorem sorted_of_mapM_ruled (h : groups.mapM (ruled rule) = .ok found)
    (hgroups : groups.Pairwise fun a b => compare a.key b.key = .lt) : Keyed.Sorted found := by
  have hkeys : (found.map Prod.fst).Pairwise fun a b => compare a b = .lt := by
    rw [keys_of_mapM_ruled h]
    exact List.pairwise_map.mpr hgroups
  exact List.pairwise_map.mp hkeys

/-- **At the key of a group its outcome is found.** -/
theorem get?_of_mapM_ruled (h : groups.mapM (ruled rule) = .ok found)
    (hgroups : groups.Pairwise fun a b => compare a.key b.key = .lt) {g : Group} (hg : g ∈ groups) :
    ∃ outcome, rule g = .ok outcome ∧ Keyed.get? g.key found = some outcome := by
  obtain ⟨i, hi, rfl⟩ := List.mem_iff_getElem.mp hg
  have hlength := (mapM_eq_ok_iff.mp h).length_eq
  have hentry := (List.forall₂_iff_get.mp (mapM_eq_ok_iff.mp h)).2 i hi (hlength ▸ hi)
  obtain ⟨hkey, hrule⟩ := ruled_eq_ok_iff.mp hentry
  refine ⟨_, hrule, (Keyed.get?_eq_some_iff (sorted_of_mapM_ruled h hgroups)).mpr ?_⟩
  have hmem := List.get_mem found ⟨i, hlength ▸ hi⟩
  rwa [← Prod.eta (found.get _), hkey] at hmem

theorem namesItsKey_of_mapM_ruled (h : groups.mapM (ruled rule) = .ok found)
    (hrule : ∀ g rates, rule g = .ok (.ok rates) → rates.key = g.key) :
    ∀ entry ∈ found, NamesItsKey entry := by
  induction mapM_eq_ok_iff.mp h with
  | nil => exact fun _ hentry => nomatch hentry
  | cons hentry hrest ih =>
    obtain ⟨hkey, houtcome⟩ := ruled_eq_ok_iff.mp hentry
    refine List.forall_mem_cons.mpr ⟨fun rates hrates => ?_, ih (mapM_eq_ok_iff.mpr hrest)⟩
    rw [hkey]
    exact hrule _ rates (hrates ▸ houtcome)

end Ruled

end Rate

/-! ### What a table says of a group -/

namespace RateTable

open Rate

/-- **What a table says of a key**: all rates and all reasons that it holds for it. -/
def outcomesAt (t : RateTable) (key : GroupKey) : List (Except SkipReason DerivedRates) :=
  (t.derived.filter fun rates => rates.key = key).map .ok ++
    (t.skipped.filter fun entry => entry.1 = key).map fun entry => .error entry.2

theorem table_cons_ok (key : GroupKey) (rates : DerivedRates) (found : Outcomes) :
    table ((key, .ok rates) :: found) =
      ⟨rates :: (table found).derived, (table found).skipped⟩ := rfl

theorem table_cons_error (key : GroupKey) (reason : SkipReason) (found : Outcomes) :
    table ((key, .error reason) :: found) =
      ⟨(table found).derived, (key, reason) :: (table found).skipped⟩ := rfl

/-- **The two lists of a table share out the keys**: each key is in one of them, once. -/
theorem perm_keys_table {found : Outcomes} (h : ∀ entry ∈ found, NamesItsKey entry) :
    ((table found).derived.map DerivedRates.key ++ (table found).skipped.map Prod.fst).Perm
      (found.map Prod.fst) := by
  induction found with
  | nil => exact .nil
  | cons entry found ih =>
    obtain ⟨hentry, hfound⟩ := List.forall_mem_cons.mp h
    obtain ⟨key, reason | rates⟩ := entry
    · rw [table_cons_error]
      exact List.perm_middle.trans ((ih hfound).cons key)
    · have hkey : rates.key = key := hentry _ rfl
      rw [table_cons_ok, List.map_cons, hkey]
      exact (ih hfound).cons key

/-- The derived rates are in the order of the outcomes. -/
theorem sublist_derived_table {found : Outcomes} (h : ∀ entry ∈ found, NamesItsKey entry) :
    ((table found).derived.map DerivedRates.key).Sublist (found.map Prod.fst) := by
  induction found with
  | nil => exact .slnil
  | cons entry found ih =>
    obtain ⟨hentry, hfound⟩ := List.forall_mem_cons.mp h
    obtain ⟨key, reason | rates⟩ := entry
    · exact (ih hfound).cons key
    · have hkey : rates.key = key := hentry _ rfl
      rw [table_cons_ok, List.map_cons, hkey]
      exact (ih hfound).cons_cons key

/-- The skipped groups are in the order of the outcomes. -/
theorem sublist_skipped_table (found : Outcomes) :
    ((table found).skipped.map Prod.fst).Sublist (found.map Prod.fst) := by
  induction found with
  | nil => exact .slnil
  | cons entry found ih =>
    obtain ⟨key, reason | rates⟩ := entry
    · exact ih.cons_cons key
    · exact ih.cons key

/-- **A table says of every key what the outcome at that key is.** -/
theorem outcomesAt_table {found : Outcomes} (h : ∀ entry ∈ found, NamesItsKey entry)
    (hsorted : Keyed.Sorted found) (key : GroupKey) :
    (table found).outcomesAt key = (Keyed.get? key found).toList := by
  induction found with
  | nil => rfl
  | cons entry found ih =>
    obtain ⟨hentry, hfound⟩ := List.forall_mem_cons.mp h
    obtain ⟨hhead, htail⟩ := List.pairwise_cons.mp hsorted
    obtain ⟨key', outcome⟩ := entry
    have hih := ih hfound htail
    rw [Keyed.get?_cons]
    by_cases hkey : key = key'
    · -- no other outcome has the key of the first one
      have hnone : Keyed.get? key' found = none := Keyed.get?_eq_none_of_lt hhead
      rw [hkey, hnone] at hih
      obtain ⟨hderived, hskipped⟩ := List.append_eq_nil_iff.mp hih
      rw [if_pos hkey, hkey, outcomesAt]
      cases outcome with
      | error reason =>
        rw [table_cons_error, List.filter_cons_of_pos (by simp), List.map_cons, hderived, hskipped]
        rfl
      | ok rates =>
        rw [table_cons_ok, List.filter_cons_of_pos (by simpa using hentry rates rfl),
          List.map_cons, hderived, hskipped]
        rfl
    · rw [if_neg hkey, ← hih, outcomesAt]
      cases outcome with
      | error reason =>
        rw [table_cons_error, List.filter_cons_of_neg (by simpa using Ne.symm hkey)]
        rfl
      | ok rates =>
        have hrates : rates.key = key' := hentry rates rfl
        rw [table_cons_ok, List.filter_cons_of_neg (by simpa [hrates] using Ne.symm hkey)]
        rfl

end RateTable

end BenchReport
