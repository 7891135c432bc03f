import Mathlib
import BenchReport.Proofs.Group.Identity
import BenchReport.Proofs.ResultLine.NormalForm

/-!
# Printed keys

A key is printed without quotes: a slash behind the name, commas between the parameters, and
equals signs between keys and values. Keys of parameters may hold slashes and equals signs
themselves, and still the printed form can be taken apart, in this order:

* the **first** slash ends the name, which has none (`BenchReport.GroupKey.toList_spell`);
* **every** comma ends a parameter, for there is none in a key nor in a value;
* the **last** equals sign ends the key, for there is none in a value
  (`BenchReport.Parameter.eq_of_spell_eq`).

What has to hold of a key for that is `BenchReport.GroupKey.IsLegible`. Keys that are put
together by hand need not be legible, but those of lines are, because tokens are normal forms
(`BenchReport.GroupKey.isLegible_of_measurement`).
-/

namespace BenchReport

/-! ### Parameters -/

namespace Parameter

/-- No value holds a comma or an equals sign. -/
theorem notMem_showSigned (n : Int64) :
    ',' ∉ (Text.showSigned n).toList ∧ '=' ∉ (Text.showSigned n).toList := by
  constructor <;> intro hmem <;> rcases ResultLine.mem_showSigned hmem with h | h <;> cases h

/-- **A printed parameter is cut at its last equals sign**, since no value holds one. -/
theorem eq_of_spell_eq {p q : Parameter} (h : (p.spell "=").toList = (q.spell "=").toList) :
    p = q := by
  have hvalue : ∀ n : Int64, '=' ∉ (Text.showSigned n).toList.reverse := fun n hmem =>
    (notMem_showSigned n).2 (List.mem_reverse.mp hmem)
  have hreverse : ∀ r : Parameter, (r.spell "=").toList.reverse =
      (Text.showSigned r.value).toList.reverse ++ '=' :: r.key.toList.reverse := fun r => by
    simp [r.toList_spell "="]
  have hspell := congrArg List.reverse h
  rw [hreverse, hreverse] at hspell
  obtain ⟨hvalues, hkeys⟩ := Text.append_cons_inj_of_notMem (hvalue _) (hvalue _) hspell
  rw [List.reverse_inj, String.toList_inj] at hvalues hkeys
  cases p
  cases q
  simp only [mk.injEq]
  exact ⟨hkeys, Text.showSigned_injective hvalues⟩

end Parameter

namespace GroupKey

/-! ### Keys -/

/-- **A key whose printed form can be taken apart.** -/
structure IsLegible (key : GroupKey) : Prop where
  /-- The first slash is the one behind the name. -/
  slash : '/' ∉ key.name.toList
  /-- There is a parameter, so there is that slash. -/
  parameters_ne : key.parameters ≠ []
  /-- The commas are those between the parameters. -/
  comma : ∀ p ∈ key.parameters, ',' ∉ p.key.toList

/-- The commas in front of parameters are commas between them. -/
theorem toList_spell_join (first : Parameter) (others : List Parameter) :
    (first.spell "=").toList ++ (String.join (others.map fun p => "," ++ p.spell "=")).toList =
      [','].intercalate ((first :: others).map fun p => (p.spell "=").toList) := by
  induction others generalizing first with
  | nil => simp
  | cons second others ih =>
    have hrest := ih second
    rw [List.map_cons] at hrest
    rw [List.map_cons, List.map_cons, List.map_cons, List.intercalate_cons_cons, ← hrest,
      String.join_cons]
    simp

/-- The printed form of a key with a parameter. -/
theorem toList_spell {key : GroupKey} (h : key.parameters ≠ []) :
    key.spell.toList = key.name.toList ++ '/' ::
      [','].intercalate (key.parameters.map fun p => (p.spell "=").toList) := by
  obtain ⟨first, others, heq⟩ := List.exists_cons_of_ne_nil h
  rw [spell, heq, spellParameters, ← toList_spell_join]
  simp

variable {a b : GroupKey}

/-- No comma is printed inside a parameter of a legible key. -/
theorem IsLegible.comma_notMem_spell (h : a.IsLegible) {p : Parameter} (hp : p ∈ a.parameters) :
    ',' ∉ (p.spell "=").toList := by
  rw [p.toList_spell "="]
  simp [h.comma p hp, (Parameter.notMem_showSigned p.value).1]

/-- **Legible keys are printed alike only if they are the same.** -/
theorem IsLegible.eq_of_spell_eq (ha : a.IsLegible) (hb : b.IsLegible) (h : a.spell = b.spell) :
    a = b := by
  have hsplit : ∀ {key : GroupKey}, key.IsLegible →
      ([','].intercalate (key.parameters.map fun p => (p.spell "=").toList)).splitOn ',' =
        key.parameters.map fun p => (p.spell "=").toList := fun hkey =>
    List.splitOn_intercalate ',' (List.forall_mem_map.mpr fun p hp => hkey.comma_notMem_spell hp)
      (by simpa using hkey.parameters_ne)
  have htext := congrArg String.toList h
  rw [toList_spell ha.parameters_ne, toList_spell hb.parameters_ne] at htext
  obtain ⟨hname, hparameters⟩ := Text.append_cons_inj_of_notMem ha.slash hb.slash htext
  have hpieces := congrArg (List.splitOn ',') hparameters
  rw [hsplit ha, hsplit hb] at hpieces
  exact ext_parts (String.toList_inj.mp hname)
    (List.map_injective_iff.mpr (fun _ _ => Parameter.eq_of_spell_eq) hpieces)

/-! ### The keys of lines -/

section Lines

open ResultLine

variable {start start' : Option String} {line line' : List Char} {m m' : Measurement}

/-- A measurement has the name and the parameters of the token that it was made from. -/
theorem exists_token_of_measurement (h : measurement start line = .ok (some m)) :
    ∃ t, token start line = .ok (some t) ∧ m.name = t.name ∧ m.parameters = t.parameters := by
  rw [measurement] at h
  split at h
  · cases h
  · cases h
  · rename_i t ht
    refine ⟨t, ht, ?_⟩
    rw [Token.measurement] at h
    split at h
    · cases h
    · rename_i shape hshape
      cases hrepeat : Parameter.firstRepeat? t.parameters with
      | some key =>
        rw [Measurement.ofParameters_eq_error hrepeat] at h
        cases h
      | none =>
        rw [Measurement.ofParameters_eq_ok (Parameter.firstRepeat?_eq_none.mp hrepeat)] at h
        cases h
        exact ⟨rfl, rfl⟩

/-- **The key of a line is legible.** -/
theorem isLegible_of_measurement (h : measurement start line = .ok (some m)) :
    m.key.IsLegible := by
  obtain ⟨t, ht, hname, hparameters⟩ := exists_token_of_measurement h
  have hnormal := isNormal_of_token ht
  have hperm := m.perm_parameters_key
  rw [hparameters] at hperm
  refine ⟨fun hslash => ?_, fun hnil => ?_, fun p hp hcomma => ?_⟩
  · have hmem : '/' ∈ t.name.toList := hname ▸ hslash
    exact absurd (hnormal.name_chars _ hmem) (by decide)
  · rw [hnil] at hperm
    exact hnormal.parameters_ne hperm.symm.eq_nil
  · exact (hnormal.keys p (hperm.mem_iff.mp hp)).comma hcomma

/-- **A printed key identifies a group.** The keys of two lines, whatever beginnings of names
are dropped in reading them, are printed alike exactly if they are the same. -/
theorem printed_key_identifies_group (h : measurement start line = .ok (some m))
    (h' : measurement start' line' = .ok (some m')) :
    m.key.spell = m'.key.spell ↔ m.key = m'.key :=
  ⟨fun hspell => (isLegible_of_measurement h).eq_of_spell_eq (isLegible_of_measurement h') hspell,
    congrArg spell⟩

/-- The same benchmark on two lines, with an equals sign in one key and a slash in the other. -/
theorem printed_key_identifies_group_of_two :
    ∃ m m', measurement (some "Benchmark") "BenchmarkX/a=b:_1,c/d:_-2-4 5m".toList = .ok (some m) ∧
      measurement none "X/c/d:_-2,_a=b:_+1-8 7m".toList = .ok (some m') ∧
      (m.key.spell = m'.key.spell ↔ m.key = m'.key) := by
  obtain ⟨m, hm⟩ : ∃ m, measurement (some "Benchmark")
      "BenchmarkX/a=b:_1,c/d:_-2-4 5m".toList = .ok (some m) := ⟨_, rfl⟩
  obtain ⟨m', hm'⟩ : ∃ m', measurement none "X/c/d:_-2,_a=b:_+1-8 7m".toList = .ok (some m') :=
    ⟨_, rfl⟩
  exact ⟨m, m', hm, hm', printed_key_identifies_group hm hm'⟩

end Lines

end GroupKey

end BenchReport
