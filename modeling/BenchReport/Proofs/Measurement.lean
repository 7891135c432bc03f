import Mathlib
import BenchReport.Measurement.Basic

/-!
# Measurements of distinct parameters

Any list of parameters makes a measurement, unless it repeats a key. A list that does has
one place where that shows first: the keys in front of it are distinct, and its own key is one
of them (`BenchReport.Parameter.firstRepeat?_eq_some_iff`). This is the key that is named when
the list is refused.

What is made keeps the list as it was. Since no key is in it twice, it does not matter in which
order the list is searched for a key: a value is found exactly if it stands beside that key
(`BenchReport.Parameter.lookup?_eq_some_iff`).
-/

namespace BenchReport

namespace Parameter

/-- The printed form of a parameter. -/
theorem toList_spell (between : String) (p : Parameter) :
    (p.spell between).toList =
      p.key.toList ++ between.toList ++ (Text.showSigned p.value).toList := by
  simp [spell]

variable {ps : List Parameter}

/-! ### Repeated keys -/

theorem firstRepeatFrom_eq_some_iff {seen : List String} {k : String} :
    firstRepeatFrom seen ps = some k ↔
      ∃ before p after, ps = before ++ p :: after ∧ firstRepeatFrom seen before = none ∧
        p.key = k ∧ (k ∈ seen ∨ k ∈ before.map key) := by
  induction ps generalizing seen with
  | nil => simp [firstRepeatFrom]
  | cons p ps ih =>
    by_cases hp : p.key ∈ seen
    · rw [firstRepeatFrom, if_pos hp, Option.some.injEq]
      constructor
      · intro hk
        exact ⟨[], p, ps, rfl, rfl, hk, .inl (hk ▸ hp)⟩
      · rintro ⟨_ | ⟨first, before⟩, q, after, hcut, hnone, hk, -⟩
        · cases hcut
          exact hk
        · -- nothing can stand in front of the first parameter
          obtain ⟨rfl, -⟩ := List.cons.inj hcut
          rw [firstRepeatFrom, if_pos hp] at hnone
          cases hnone
    · rw [firstRepeatFrom, if_neg hp, ih]
      constructor
      · rintro ⟨before, q, after, rfl, hnone, hk, hmem⟩
        refine ⟨p :: before, q, after, rfl, ?_, hk, ?_⟩
        · rw [firstRepeatFrom, if_neg hp]
          exact hnone
        · rw [List.mem_cons] at hmem
          rw [List.map_cons, List.mem_cons]
          tauto
      · rintro ⟨_ | ⟨first, before⟩, q, after, hcut, hnone, hk, hmem⟩
        · cases hcut
          exact absurd hmem (by simpa [← hk] using hp)
        · obtain ⟨rfl, rfl⟩ := List.cons.inj hcut
          rw [firstRepeatFrom, if_neg hp] at hnone
          refine ⟨before, q, after, rfl, hnone, hk, ?_⟩
          rw [List.map_cons, List.mem_cons] at hmem
          rw [List.mem_cons]
          tauto

/-- **The first key that repeats an earlier one** is the key of the first parameter behind
distinct keys that is one of these. -/
theorem firstRepeat?_eq_some_iff {k : String} :
    firstRepeat? ps = some k ↔
      ∃ before p after, ps = before ++ p :: after ∧ (before.map key).Nodup ∧ p.key = k ∧
        k ∈ before.map key := by
  have hnone : ∀ before, firstRepeatFrom [] before = none ↔ (before.map key).Nodup :=
    fun _ => firstRepeat?_eq_none
  simp only [firstRepeat?, firstRepeatFrom_eq_some_iff, hnone, List.not_mem_nil, false_or]

/-! ### Values of keys -/

theorem mem_of_lookup? {k : String} {v : Int64} (h : lookup? k ps = some v) : ⟨k, v⟩ ∈ ps := by
  obtain ⟨p, hfind, rfl⟩ := Option.map_eq_some_iff.mp h
  obtain rfl : p.key = k := by simpa using List.find?_some hfind
  exact List.mem_of_find?_eq_some hfind

theorem isSome_lookup?_iff {k : String} : (lookup? k ps).isSome = true ↔ k ∈ ps.map key := by
  rw [lookup?, Option.isSome_map, List.find?_isSome, List.mem_map]
  simp only [decide_eq_true_eq]

/-- **A key that is given once has the value beside it**, and no other. -/
theorem lookup?_eq_some_iff (h : (ps.map key).Nodup) {k : String} {v : Int64} :
    lookup? k ps = some v ↔ ⟨k, v⟩ ∈ ps := by
  refine ⟨mem_of_lookup?, fun hmem => ?_⟩
  obtain ⟨w, hw⟩ := Option.isSome_iff_exists.mp
    (isSome_lookup?_iff.mpr (List.mem_map_of_mem hmem))
  have hsame := List.inj_on_of_nodup_map h (mem_of_lookup? hw) hmem rfl
  rw [hw, Option.some.injEq]
  exact congrArg value hsame

end Parameter

/-! ### Making a measurement -/

namespace Measurement

variable {name : String} {parameters : List Parameter} {shape : Shape}

/-- Parameters whose keys are distinct make a measurement. -/
theorem ofParameters_eq_ok (h : (parameters.map Parameter.key).Nodup) :
    ofParameters name parameters shape = .ok ⟨name, parameters, shape, h⟩ := by
  rw [ofParameters]
  split
  · rename_i key hrepeat
    rw [Parameter.firstRepeat?_eq_none.mpr h] at hrepeat
    cases hrepeat
  · rfl

/-- Parameters that repeat a key make none, and the first such key is named. -/
theorem ofParameters_eq_error {key : String} (h : Parameter.firstRepeat? parameters = some key) :
    ofParameters name parameters shape = .error (.duplicateParameter key) := by
  rw [ofParameters]
  split
  · rename_i first hrepeat
    rw [h, Option.some.injEq] at hrepeat
    rw [hrepeat]
  · rename_i hnone
    rw [h] at hnone
    cases hnone

/-- **A parameter of a measurement is looked up by its key.** -/
theorem parameter?_eq_some_iff (m : Measurement) {key : String} {value : Int64} :
    m.parameter? key = some value ↔ ⟨key, value⟩ ∈ m.parameters :=
  Parameter.lookup?_eq_some_iff m.nodup_keys

end Measurement

end BenchReport
