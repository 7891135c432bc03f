import Mathlib
import BenchReport.Proofs.Manifest.UnknownFields
import BenchReport.Proofs.Text.ByteOrder

/-!
# The names of the sources of a manifest

A manifest is checked by sorting the names of its sources and comparing neighbours. That this is
enough is a matter of the order alone: in an ascending list a name cannot come back once a greater
one has been met, so a name given more than once stands beside itself, and the first neighbours
that are the same show the least such name (`BenchReport.Manifest.firstTwin?_cases`). Where the
repetitions stood in the document makes no difference, since counting does not depend on it.

Only a sorted copy is looked at. A manifest that passes has its sources as the document lists them
(`BenchReport.Manifest.exists_items_of_ofYaml?`).
-/

namespace BenchReport.Manifest

variable {m : Manifest}

/-! ### Names that are given more than once -/

section Repeated

variable {names names' : List String} {name : String}

/-- **Whether a name is the first of those given more than once**, in the order of bytes. -/
structure IsFirstRepeated (names : List String) (name : String) : Prop where
  /-- It is given more than once. -/
  repeated : 2 ≤ names.count name
  /-- No other name that is has lesser bytes. -/
  least : ∀ other, 2 ≤ names.count other → ¬Text.encode other < Text.encode name

theorem IsFirstRepeated.perm (h : IsFirstRepeated names name) (hperm : names.Perm names') :
    IsFirstRepeated names' name :=
  ⟨hperm.count_eq name ▸ h.repeated,
    fun other hother => h.least other ((hperm.count_eq other).symm ▸ hother)⟩

/-- There is one such name at most. -/
theorem IsFirstRepeated.unique {name' : String} (h : IsFirstRepeated names name)
    (h' : IsFirstRepeated names name') : name = name' := by
  have hle := h'.least name h.repeated
  have hge := h.least name' h'.repeated
  rw [Text.encode_lt_encode_iff, not_lt] at hle hge
  exact le_antisymm hge hle

theorem IsFirstRepeated.not_nodup (h : IsFirstRepeated names name) : ¬names.Nodup := by
  intro hnodup
  have hle := List.nodup_iff_count_le_one.mp hnodup name
  exact absurd h.repeated (by omega)

/-- A lesser name that is given once does not change which one is the first given twice. -/
theorem IsFirstRepeated.cons {a : String} (h : IsFirstRepeated names name)
    (hlt : ∀ b ∈ names, a < b) : IsFirstRepeated (a :: names) name := by
  have hcount : ∀ other, 2 ≤ (a :: names).count other → 2 ≤ names.count other := by
    intro other hother
    rcases eq_or_ne a other with rfl | hne
    · have hmem : a ∉ names := fun hmem => lt_irrefl a (hlt a hmem)
      rw [List.count_cons_self, List.count_eq_zero.mpr hmem] at hother
      omega
    · rwa [List.count_cons_of_ne hne] at hother
  exact ⟨h.repeated.trans List.count_le_count_cons, fun other hother =>
    h.least other (hcount other hother)⟩

/-- **Neighbours in an ascending list** show the first name that is given more than once, and that
there is none if no two of them are the same. -/
theorem firstTwin?_cases (h : names.Pairwise (· ≤ ·)) :
    (firstTwin? names = none ∧ names.Nodup) ∨
      ∃ name, firstTwin? names = some name ∧ IsFirstRepeated names name := by
  induction names with
  | nil => exact .inl ⟨rfl, List.nodup_nil⟩
  | cons a names ih =>
    obtain ⟨hle, hrest⟩ := List.pairwise_cons.mp h
    rcases names with _ | ⟨b, rest⟩
    · exact .inl ⟨rfl, List.nodup_singleton a⟩
    rw [firstTwin?]
    rcases eq_or_ne a b with rfl | hne
    · refine .inr ⟨a, if_pos rfl, ?_, fun other hother hlt => ?_⟩
      · rw [List.count_cons_self, List.count_cons_self]
        omega
      · have hmem : other ∈ a :: a :: rest := List.count_pos_iff.mp (by omega)
        have hge : a ≤ other := (List.mem_cons.mp hmem).elim (fun heq => heq.ge) (hle other)
        exact hge.not_gt (Text.encode_lt_encode_iff.mp hlt)
    · rw [if_neg hne]
      -- what follows is greater than the first name, so that this one does not come back
      have hlt : ∀ c ∈ b :: rest, a < c := by
        intro c hc
        refine ((hle b List.mem_cons_self).lt_of_ne hne).trans_le ?_
        exact (List.mem_cons.mp hc).elim (fun heq => heq.ge)
          ((List.pairwise_cons.mp hrest).1 c)
      rcases ih hrest with ⟨hnone, hnodup⟩ | ⟨name, hname, hfirst⟩
      · exact .inl ⟨hnone, List.nodup_cons.mpr ⟨fun hmem => lt_irrefl a (hlt a hmem), hnodup⟩⟩
      · exact .inr ⟨name, hname, hfirst.cons hlt⟩

/-- Sorted names ascend. -/
theorem pairwise_sorted (names : List String) :
    (names.mergeSort fun a b => (compare a b).isLE).Pairwise (· ≤ ·) := by
  have hle : ∀ a b : String, (compare a b).isLE = true ↔ a ≤ b := fun a b =>
    Ordering.ne_gt_iff_isLE.symm.trans compare_le_iff_le
  refine (List.pairwise_mergeSort (fun a b c hab hbc => ?_) (fun a b => ?_) names).imp fun hab =>
    (hle _ _).mp hab
  · rw [hle] at *
    exact hab.trans hbc
  · rw [Bool.or_eq_true, hle, hle]
    exact le_total a b

/-- **A manifest names its sources differently, or the first repeated name is found.** -/
theorem repeatedName?_cases (m : Manifest) :
    (m.repeatedName? = none ∧ (m.sources.map Source.name).Nodup) ∨
      ∃ name, m.repeatedName? = some name ∧ IsFirstRepeated (m.sources.map Source.name) name := by
  have hperm := List.mergeSort_perm (m.sources.map Source.name) fun a b => (compare a b).isLE
  exact (firstTwin?_cases (pairwise_sorted _)).imp
    (And.imp_right hperm.nodup_iff.mp)
    (Exists.imp fun name => And.imp_right fun hfirst => hfirst.perm hperm)

end Repeated

/-! ### Sources in the order of the document -/

section Order

variable {node : Yaml}

theorem mapM_eq_some_iff {α β : Type} {f : α → Option β} {xs : List α} {ys : List β} :
    xs.mapM f = some ys ↔ xs.map f = ys.map some := by
  induction xs generalizing ys with
  | nil => cases ys <;> simp
  | cons x xs ih =>
    rw [List.mapM_cons]
    cases ys with
    | nil => simp [Option.bind_eq_some_iff]
    | cons y ys => simp [Option.bind_eq_some_iff, ih]

/-- **The sources of a manifest are the items under its `sources`**, one for one and in their
order. -/
theorem exists_items_of_ofYaml? (h : ofYaml? node = some m) (hne : m.sources ≠ []) :
    ∃ items, node.under "sources" = [.sequence items] ∧ items.map source? = m.sources.map some := by
  rw [ofYaml?] at h
  simp only [Option.bind_eq_bind, Option.bind_eq_some_iff, Fields.required?] at h
  obtain ⟨fields, hfields, sources, ⟨value, hvalue, hsources⟩, rates, -, format, -, output, -,
    nameStart, -, hm⟩ := h
  obtain rfl := Option.some.inj hm
  have hunder := Fields.under_of_lookup (Option.filter_eq_some_iff.mp hfields).1 (by decide) hvalue
  cases value with
  | sequence items => exact ⟨items, hunder, mapM_eq_some_iff.mp hsources⟩
  | scalar plain text =>
    have hnull : (if (Yaml.scalar plain text).isNull then some [] else none) = some sources :=
      hsources
    rw [Option.ite_none_right_eq_some] at hnull
    exact absurd (Option.some.inj hnull.2).symm hne
  | mapping entries => cases hsources

end Order

/-- **What is wrong with a manifest** is that it has no sources or that a name is given twice. -/
theorem fault?_cases (m : Manifest) :
    m.sources = [] ∧ m.fault? = some .noSources ∨
      m.sources ≠ [] ∧ (m.sources.map Source.name).Nodup ∧ m.fault? = none ∨
      m.sources ≠ [] ∧ ∃ name, IsFirstRepeated (m.sources.map Source.name) name ∧
        m.fault? = some (.repeatedName name) := by
  by_cases hempty : m.sources = []
  · exact .inl ⟨hempty, by rw [fault?, if_pos (by simpa using hempty)]⟩
  · refine .inr ?_
    rw [fault?, if_neg (by simpa using hempty)]
    rcases m.repeatedName?_cases with ⟨hnone, hnodup⟩ | ⟨name, hname, hfirst⟩
    · exact .inl ⟨hempty, hnodup, by rw [hnone, Option.map_none]⟩
    · exact .inr ⟨hempty, name, hfirst, by rw [hname, Option.map_some]⟩

/-- **A manifest with sources passes if it names them differently.** -/
theorem fault?_eq_none (hne : m.sources ≠ []) (hnames : (m.sources.map Source.name).Nodup) :
    m.fault? = none := by
  rcases m.fault?_cases with ⟨hempty, -⟩ | ⟨-, -, hnone⟩ | ⟨-, name, hfirst, -⟩
  · exact absurd hempty hne
  · exact hnone
  · exact absurd hnames hfirst.not_nodup

/-- **A manifest can be used exactly if it has sources and names them differently**, whoever reads
the document. If it can, its sources are the items of the document, in their order. If names are
repeated, the fault says which is the first of them in the order of bytes, wherever they stand. -/
theorem read_names_first_repeated {readYaml : String → Option Yaml} {text : String} {node : Yaml}
    (htext : readYaml text = some node) (hnode : ofYaml? node = some m) :
    let names := m.sources.map Source.name
    ((∃ m', read readYaml text = .ok m') ↔ m.sources ≠ [] ∧ names.Nodup) ∧
      (∀ m', read readYaml text = .ok m' → m' = m ∧
        ∃ items, node.under "sources" = [.sequence items] ∧
          items.map source? = m'.sources.map some) ∧
      (m.sources = [] → read readYaml text = .error .noSources) ∧
      (¬names.Nodup → ∃ name, IsFirstRepeated names name ∧
        read readYaml text = .error (.repeatedName name)) := by
  intro names
  have hread : read readYaml text = m.fault?.elim (.ok m) .error := by
    rw [read, htext]
    simp only [ofYaml, hnode]
    cases m.fault? <;> rfl
  rcases m.fault?_cases with ⟨hempty, hfault⟩ | ⟨hne, hnodup, hfault⟩ | ⟨hne, name, hfirst, hfault⟩
  · rw [hfault] at hread
    have hnames : names.Nodup := by
      change (m.sources.map Source.name).Nodup
      rw [hempty]
      exact List.nodup_nil
    rw [hread, Option.elim_some]
    exact ⟨iff_of_false (by simp) fun h => h.1 hempty, fun _ hok => (by cases hok), fun _ => rfl,
      fun h => absurd hnames h⟩
  · rw [hfault] at hread
    rw [hread, Option.elim_none]
    refine ⟨iff_of_true ⟨m, rfl⟩ ⟨hne, hnodup⟩, ?_, fun h => absurd h hne,
      fun h => absurd hnodup h⟩
    intro m' hm'
    obtain rfl := Except.ok.inj hm'
    exact ⟨rfl, exists_items_of_ofYaml? hnode hne⟩
  · rw [hfault] at hread
    rw [hread, Option.elim_some]
    exact ⟨iff_of_false (by simp) fun h => hfirst.not_nodup h.2, fun _ hok => (by cases hok),
      fun h => absurd h hne, fun _ => ⟨name, hfirst, rfl⟩⟩

/-- A document that has two sources named `é`, two named `b`, and one between them. -/
def fiveSources : String :=
  "sources:\n  - name: é\n    path: x\n  - name: b\n    path: x\n" ++
    "  - name: é\n    path: x\n  - name: a\n    path: x\n  - name: b\n    path: x\n"

/-- Of two repeated names the one with the lesser bytes is told, not the one that is met first. -/
theorem first_repeated_of_five :
    ∃ node m, Yaml.read? fiveSources = some node ∧ ofYaml? node = some m ∧
      m.sources.map Source.name = ["é", "b", "é", "a", "b"] ∧
      read Yaml.read? fiveSources = .error (.repeatedName "b") := by
  have hread : ∃ node ∈ Yaml.read? fiveSources, ∃ m ∈ ofYaml? node,
      m.sources.map Source.name = ["é", "b", "é", "a", "b"] := by
    decide +kernel
  obtain ⟨node, htext, m, hnode, hnames⟩ := hread
  refine ⟨node, m, htext, hnode, hnames, ?_⟩
  obtain ⟨-, -, -, hrepeated⟩ := read_names_first_repeated htext hnode
  rw [hnames] at hrepeated
  obtain ⟨name, hfirst, hfault⟩ := hrepeated (by decide)
  have hb : IsFirstRepeated ["é", "b", "é", "a", "b"] "b" := by
    refine ⟨by decide, fun other hother => ?_⟩
    have hmem := List.count_pos_iff.mp (zero_lt_two.trans_le hother)
    simp only [List.mem_cons, List.not_mem_nil, or_false] at hmem
    rcases hmem with rfl | rfl | rfl | rfl | rfl <;> revert hother <;> decide +kernel
  rw [hfault, hfirst.unique hb]

end BenchReport.Manifest
