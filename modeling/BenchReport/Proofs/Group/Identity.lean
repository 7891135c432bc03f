import Mathlib
import BenchReport.Proofs.Group.Search
import BenchReport.Proofs.Measurement

/-!
# A key is a set of parameters

The parameters of a measurement stand in the order of its line, those of a key are sorted.
Sorting forgets the order and nothing else, since the order of parameters is total and two
parameters neither of which is behind the other are the same
(`BenchReport.Parameter.le_antisymm`). So the measurements of one group are those of one
benchmark with the same parameters (`BenchReport.GroupKey.ofParameters_eq_iff`).

Nor does a key lose what can be looked up. Its parameters are searched by halving and those of
a measurement from their beginning, but where no name is repeated both searches find the value
that stands beside the name (`BenchReport.GroupKey.parameter?_eq_some_iff`), and the parameters
are the same ones in either place (`BenchReport.Measurement.perm_parameters_key`).
-/

namespace BenchReport

theorem Parameter.le_antisymm {a b : Parameter} (hab : le a b = true) (hba : le b a = true) :
    a = b :=
  Std.LawfulEqCmp.eq_of_compare (Std.OrientedCmp.isLE_antisymm hab hba)

namespace GroupKey

/-! ### Keys without repeated names -/

section Distinct

variable {key : GroupKey}

/-- Whether no name is repeated among the parameters of a key. -/
def IsDistinct (key : GroupKey) : Prop := (key.parameters.map Parameter.key).Nodup

instance (key : GroupKey) : Decidable key.IsDistinct :=
  inferInstanceAs (Decidable (key.parameters.map Parameter.key).Nodup)

/-- The names of a key ascend strictly if none is repeated. -/
theorem pairwise_names (h : key.IsDistinct) :
    (key.parameters.map Parameter.key).Pairwise (· < ·) := by
  have hle : (key.parameters.map Parameter.key).Pairwise (· ≤ ·) :=
    List.pairwise_map.mpr key.key_le_key
  exact hle.imp₂ (fun a b hab hne => lt_of_le_of_ne hab hne) h

theorem isSome_parameter?_iff {name : String} :
    (key.parameter? name).isSome = true ↔ name ∈ key.parameters.map Parameter.key := by
  rw [parameter?, Parameter.isSome_lookup?_iff, List.map_reverse, List.mem_reverse]

/-- **A parameter of a key is looked up by its name** if no name is repeated. -/
theorem parameter?_eq_some_iff (h : key.IsDistinct) {name : String} {value : Int64} :
    key.parameter? name = some value ↔ ⟨name, value⟩ ∈ key.parameters := by
  have hreverse : (key.parameters.reverse.map Parameter.key).Nodup := by
    rw [List.map_reverse, List.nodup_reverse]
    exact h
  rw [parameter?, Parameter.lookup?_eq_some_iff hreverse, List.mem_reverse]

end Distinct

/-! ### Equal keys -/

/-- **Keys are equal exactly if their benchmarks are and their parameters are the same ones**,
in any order. -/
theorem ofParameters_eq_iff {name name' : String} {ps ps' : List Parameter} :
    ofParameters name ps = ofParameters name' ps' ↔ name = name' ∧ ps.Perm ps' := by
  constructor
  · intro h
    have hsorted : ps.mergeSort Parameter.le = ps'.mergeSort Parameter.le :=
      congrArg parameters h
    refine ⟨congrArg GroupKey.name h, ?_⟩
    calc
      ps.Perm (ps.mergeSort Parameter.le) := (List.mergeSort_perm ps _).symm
      _ = ps'.mergeSort Parameter.le := hsorted
      List.Perm _ ps' := List.mergeSort_perm ps' _
  · rintro ⟨rfl, hperm⟩
    refine ext_parts rfl ?_
    have hsorted : (ps.mergeSort Parameter.le).Perm (ps'.mergeSort Parameter.le) :=
      (List.mergeSort_perm ps _).trans (hperm.trans (List.mergeSort_perm ps' _).symm)
    exact hsorted.eq_of_pairwise (fun a b _ _ hab hba => Parameter.le_antisymm hab hba)
      (ofParameters name ps).sorted (ofParameters name ps').sorted

end GroupKey

/-! ### The key of a measurement -/

namespace Measurement

/-- The parameters of a measurement are those of its key. -/
theorem perm_parameters_key (m : Measurement) : m.key.parameters.Perm m.parameters :=
  List.mergeSort_perm m.parameters _

theorem isDistinct_key (m : Measurement) : m.key.IsDistinct :=
  (m.perm_parameters_key.map Parameter.key).nodup_iff.mpr m.nodup_keys

/-- **A measurement and its key say the same of every parameter.** -/
theorem parameter?_key (m : Measurement) (name : String) :
    m.key.parameter? name = m.parameter? name := by
  refine Option.ext fun value => ?_
  rw [m.key.parameter?_eq_some_iff m.isDistinct_key, m.perm_parameters_key.mem_iff,
    m.parameter?_eq_some_iff]

/-- **A group is a benchmark with a set of parameters.** A list of parameters is refused if a
key in it repeats an earlier one, and the first such key is named; any other list makes a
measurement, which keeps it as it was. Two measurements have one group key exactly if they are
of one benchmark and have the same parameters in any order. Halving the sorted parameters of
the key finds of every name what the measurement says of it: the value beside it, or nothing
where the name does not occur. -/
theorem key_is_set_of_parameters :
    (∀ (name : String) (parameters : List Parameter) (shape : Shape),
        (∃ before p after, parameters = before ++ p :: after ∧
            (before.map Parameter.key).Nodup ∧ p.key ∈ before.map Parameter.key ∧
            ofParameters name parameters shape = .error (.duplicateParameter p.key)) ∨
          (parameters.map Parameter.key).Nodup ∧
            ∃ m, ofParameters name parameters shape = .ok m ∧ m.name = name ∧
              m.parameters = parameters ∧ m.shape = shape) ∧
      (∀ a b : Measurement, a.key = b.key ↔ a.name = b.name ∧ a.parameters.Perm b.parameters) ∧
      ∀ (m : Measurement) (name : String), m.key.search? name = m.parameter? name ∧
        (∀ value, m.parameter? name = some value ↔ ⟨name, value⟩ ∈ m.parameters) ∧
        (m.parameter? name = none ↔ name ∉ m.parameters.map Parameter.key) := by
  refine ⟨fun name parameters shape => ?_, fun a b => GroupKey.ofParameters_eq_iff,
    fun m name => ⟨?_, fun value => m.parameter?_eq_some_iff, ?_⟩⟩
  · cases hrepeat : Parameter.firstRepeat? parameters with
    | some key =>
      obtain ⟨before, p, after, hcut, hnodup, rfl, hmem⟩ :=
        Parameter.firstRepeat?_eq_some_iff.mp hrepeat
      exact .inl ⟨before, p, after, hcut, hnodup, hmem, ofParameters_eq_error hrepeat⟩
    | none =>
      have hnodup := Parameter.firstRepeat?_eq_none.mp hrepeat
      exact .inr ⟨hnodup, _, ofParameters_eq_ok hnodup, rfl, rfl, rfl⟩
  · rw [GroupKey.search?_eq_parameter?, parameter?_key]
  · rw [← Option.not_isSome_iff_eq_none, parameter?, Parameter.isSome_lookup?_iff]

end Measurement

end BenchReport
