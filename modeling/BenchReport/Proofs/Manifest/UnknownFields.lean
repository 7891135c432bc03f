import Mathlib
import BenchReport.Manifest
import BenchReport.Yaml.Reader

/-!
# Fields that a manifest does not know

A manifest is made of mappings on three levels: the document, its section on rates, and its
sources. The first two are *closed*: a key that is none of their fields makes the document
unusable, whatever else it says (`BenchReport.Fields.ofClosedYaml?_eq_none`).

A source is *open*. An entry whose key is the name of no field is passed over, so a source is
what it is without such entries (`BenchReport.Manifest.source?_keep`), and a field whose name is
misspelt has its default (`BenchReport.Manifest.misspelt_unit_is_passed_over`). The one key that
is refused in a source is one that is no text.

How the document is written does not matter: all this holds for every reader of documents, and a
particular one stands only where a particular text is read.
-/

namespace BenchReport

/-! ### Parts of a document -/

namespace Yaml

/-- The entries of a mapping; another node has none. -/
def entries : Yaml → List (Yaml × Yaml)
  | mapping entries => entries
  | _ => []

/-- The items of a sequence; another node has none. -/
def items : Yaml → List Yaml
  | sequence items => items
  | _ => []

/-- What a mapping has under a name. -/
def under (name : String) (node : Yaml) : List Yaml :=
  (node.entries.filter fun entry => entry.1.text? = some name).map Prod.snd

/-- Whether a mapping has a key that is none of the `known` names. -/
def HasUnknownKey (known : List String) (node : Yaml) : Prop :=
  ∃ entry ∈ node.entries, ∀ name ∈ known, entry.1.text? ≠ some name

instance (known : List String) (node : Yaml) : Decidable (node.HasUnknownKey known) :=
  inferInstanceAs (Decidable (∃ entry ∈ node.entries, ∀ name ∈ known, entry.1.text? ≠ some name))

/-- A mapping without the entries under names that are none of the `known` ones. Entries whose
keys are no texts are under no name. -/
def keep (known : List String) : Yaml → Yaml
  | mapping entries => mapping (entries.filter fun entry => entry.1.text?.all known.contains)
  | node => node

/-- A mapping with all that it has under a name changed. -/
def mapUnder (name : String) (f : Yaml → Yaml) : Yaml → Yaml
  | mapping entries =>
    mapping (entries.map fun entry =>
      (entry.1, if entry.1.text? = some name then f entry.2 else entry.2))
  | node => node

end Yaml

namespace Fields

variable {known : List String} {node : Yaml} {fields : Fields} {name : String}

/-! ### Fields and entries -/

theorem ofEntry?_eq_some_iff {entry : Yaml × Yaml} {field : String × Yaml} :
    ofEntry? entry = some field ↔ (entry.1.text?, entry.2) = (some field.1, field.2) := by
  obtain ⟨key, value⟩ := entry
  obtain ⟨name, value'⟩ := field
  simp only [Option.map_eq_some_iff, ofEntry?, Prod.mk.injEq]
  constructor
  · rintro ⟨name, hname, rfl, rfl⟩
    exact ⟨hname, rfl⟩
  · rintro ⟨hname, rfl⟩
    exact ⟨name, hname, rfl, rfl⟩

theorem mapM_ofEntry?_eq_some_iff {entries : List (Yaml × Yaml)} :
    entries.mapM ofEntry? = some fields ↔
      entries.map (fun entry => (entry.1.text?, entry.2)) =
        fields.map fun field => (some field.1, field.2) := by
  induction entries generalizing fields with
  | nil => cases fields <;> simp
  | cons entry entries ih =>
    rw [List.mapM_cons]
    cases fields with
    | nil => simp [Option.bind_eq_some_iff]
    | cons field fields => simp [Option.bind_eq_some_iff, ofEntry?_eq_some_iff, ih]

/-- **The fields of a node are its entries**, each under the text of its key. -/
theorem entries_of_ofYaml? (h : ofYaml? known node = some fields) :
    node.entries.map (fun entry => (entry.1.text?, entry.2)) =
      fields.map fun field => (some field.1, field.2) := by
  cases node with
  | mapping entries => exact mapM_ofEntry?_eq_some_iff.mp (Option.filter_eq_some_iff.mp h).1
  | scalar plain text => cases h
  | sequence items => cases h

/-- No known field is repeated. -/
theorem repeats_of_ofYaml? (h : ofYaml? known node = some fields) (hname : name ∈ known) :
    fields.repeats name = false := by
  cases node with
  | mapping entries =>
    have hany := (Option.filter_eq_some_iff.mp h).2
    simp only [Bool.not_eq_true', List.any_eq_false, Bool.not_eq_true] at hany
    exact hany name hname
  | scalar plain text => cases h
  | sequence items => cases h

/-- What a node has under a name is what its fields of that name hold. -/
theorem under_of_ofYaml? (h : ofYaml? known node = some fields) :
    node.under name = (fields.filter fun field => field.1 = name).map Prod.snd := by
  have hfilter :=
    congrArg (fun pairs => (pairs.filter fun pair => pair.1 = some name).map Prod.snd)
      (entries_of_ofYaml? h)
  simpa [List.filter_map, Function.comp_def, Yaml.under] using hfilter

/-- A field is looked up among those of its name. -/
theorem lookup_eq (fields : Fields) (name : String) :
    fields.lookup name = ((fields.filter fun field => field.1 = name).map Prod.snd).head? := by
  induction fields with
  | nil => rfl
  | cons field fields ih =>
    obtain ⟨first, value⟩ := field
    rw [List.lookup_cons, List.filter_cons]
    by_cases hfirst : first = name
    · simp [hfirst]
    · have hbeq : (name == first) = false := by simpa using Ne.symm hfirst
      simp [hfirst, hbeq, ih]

/-- What is looked up is the first that a node has under the name. -/
theorem lookup_eq_head? (h : ofYaml? known node = some fields) (name : String) :
    fields.lookup name = (node.under name).head? := by
  rw [lookup_eq, under_of_ofYaml? h]

/-- A known field is given once. -/
theorem length_under_le_one (h : ofYaml? known node = some fields) (hname : name ∈ known) :
    (node.under name).length ≤ 1 := by
  rw [under_of_ofYaml? h, List.length_map]
  simpa [repeats] using repeats_of_ofYaml? h hname

/-- **A known field is found**, whatever stands around it: it is given once. -/
theorem lookup_of_mem_under {value : Yaml} (h : ofYaml? known node = some fields)
    (hname : name ∈ known) (hvalue : value ∈ node.under name) :
    fields.lookup name = some value := by
  have honce := length_under_le_one h hname
  obtain ⟨only, honly⟩ :=
    List.length_eq_one_iff.mp (Nat.le_antisymm honce (List.length_pos_of_mem hvalue))
  rw [honly, List.mem_singleton] at hvalue
  rw [lookup_eq_head? h, honly, hvalue]
  rfl

/-- A known field that is found is all that a node has under its name. -/
theorem under_of_lookup {value : Yaml} (h : ofYaml? known node = some fields)
    (hname : name ∈ known) (hvalue : fields.lookup name = some value) :
    node.under name = [value] := by
  have honce := length_under_le_one h hname
  rw [lookup_eq_head? h] at hvalue
  obtain ⟨rest, hrest⟩ := List.head?_eq_some_iff.mp hvalue
  rw [hrest, List.length_cons] at honce
  rw [hrest, List.length_eq_zero_iff.mp (by omega : rest.length = 0)]

/-! ### Closed mappings -/

/-- **A closed mapping with an unknown key has no fields.** -/
theorem ofClosedYaml?_eq_none (h : node.HasUnknownKey known) : ofClosedYaml? known node = none := by
  refine Option.eq_none_iff_forall_ne_some.mpr fun fields hfields => ?_
  obtain ⟨hread, hall⟩ := Option.filter_eq_some_iff.mp hfields
  obtain ⟨entry, hentry, hunknown⟩ := h
  have hmem := List.mem_map_of_mem (f := fun entry => (entry.1.text?, entry.2)) hentry
  rw [entries_of_ofYaml? hread] at hmem
  obtain ⟨field, hfield, heq⟩ := List.mem_map.mp hmem
  have hknown : field.1 ∈ known := by simpa using List.all_eq_true.mp hall field hfield
  exact hunknown field.1 hknown (Prod.mk.inj heq).1.symm

/-! ### Open mappings -/

/-- The `known` ones among the fields. -/
def keep (known : List String) (fields : Fields) : Fields :=
  fields.filter fun field => known.contains field.1

theorem filter_keep (hname : name ∈ known) :
    (keep known fields).filter (fun field => field.1 = name) =
      fields.filter fun field => field.1 = name := by
  rw [keep, List.filter_filter]
  refine List.filter_congr fun field _ => ?_
  by_cases h : field.1 = name
  · simp [h, hname]
  · simp [h]

theorem repeats_keep (hname : name ∈ known) :
    repeats (keep known fields) name = repeats fields name := by
  rw [repeats, repeats, filter_keep hname]

theorem any_repeats_congr {others : Fields}
    (h : ∀ name ∈ known, repeats fields name = repeats others name) :
    known.any (repeats fields) = known.any (repeats others) := by
  rw [Bool.eq_iff_iff, List.any_eq_true, List.any_eq_true]
  exact exists_congr fun name => and_congr_right fun hname => by rw [h name hname]

theorem lookup_keep (hname : name ∈ known) :
    (keep known fields).lookup name = fields.lookup name := by
  rw [lookup_eq, lookup_eq, filter_keep hname]

theorem mapM_ofEntry?_filter (known : List String) (entries : List (Yaml × Yaml)) :
    (entries.filter fun entry => entry.1.text?.all known.contains).mapM ofEntry? =
      (entries.mapM ofEntry?).map (keep known) := by
  induction entries with
  | nil => rfl
  | cons entry entries ih =>
    obtain ⟨key, value⟩ := entry
    rw [List.filter_cons, List.mapM_cons, ofEntry?]
    cases hkey : key.text? with
    | none => simp [hkey, ofEntry?]
    | some name =>
      by_cases hname : name ∈ known
      · rw [if_pos (by simpa using hname), List.mapM_cons, ih, ofEntry?, hkey]
        cases entries.mapM ofEntry? with
        | none => rfl
        | some fields => simp [keep, hname]
      · rw [if_neg (by simpa using hname), ih]
        cases entries.mapM ofEntry? with
        | none => rfl
        | some fields => simp [keep, hname]

/-- **What is left out of a mapping is left out of its fields**, and nothing else. -/
theorem ofYaml?_keep (known : List String) (node : Yaml) :
    ofYaml? known (node.keep known) = (ofYaml? known node).map (keep known) := by
  cases node with
  | mapping entries =>
    rw [Yaml.keep, ofYaml?, ofYaml?, mapM_ofEntry?_filter]
    cases entries.mapM ofEntry? with
    | none => rfl
    | some fields =>
      have hrepeats : known.any (repeats (keep known fields)) = known.any (repeats fields) :=
        any_repeats_congr fun name hname => repeats_keep hname
      simp only [Option.map_some, Option.filter_some, hrepeats]
      split <;> rfl
  | scalar plain text => rfl
  | sequence items => rfl

/-! ### Changed values -/

/-- The fields with the values of one name changed. -/
def mapUnder (name : String) (f : Yaml → Yaml) (fields : Fields) : Fields :=
  fields.map fun field => (field.1, if field.1 = name then f field.2 else field.2)

variable {f : Yaml → Yaml}

theorem filter_mapUnder (other : String) :
    (mapUnder name f fields).filter (fun field => field.1 = other) =
      mapUnder name f (fields.filter fun field => field.1 = other) := by
  rw [mapUnder, List.filter_map]
  rfl

theorem repeats_mapUnder (other : String) :
    repeats (mapUnder name f fields) other = repeats fields other := by
  rw [repeats, repeats, filter_mapUnder, mapUnder, List.length_map]

theorem lookup_mapUnder_of_ne {other : String} (h : other ≠ name) :
    (mapUnder name f fields).lookup other = fields.lookup other := by
  rw [lookup_eq, lookup_eq, filter_mapUnder, mapUnder, List.map_map]
  refine congrArg List.head? (List.map_congr_left fun field hfield => ?_)
  have hother : field.1 = other := by simpa using (List.mem_filter.mp hfield).2
  simp [hother, h]

theorem lookup_mapUnder : (mapUnder name f fields).lookup name = (fields.lookup name).map f := by
  rw [lookup_eq, lookup_eq, filter_mapUnder, mapUnder, List.map_map, ← List.head?_map, List.map_map]
  refine congrArg List.head? (List.map_congr_left fun field hfield => ?_)
  have hname : field.1 = name := by simpa using (List.mem_filter.mp hfield).2
  simp [hname]

theorem ofClosedYaml?_mapUnder (known : List String) (node : Yaml) :
    ofClosedYaml? known (node.mapUnder name f) =
      (ofClosedYaml? known node).map (mapUnder name f) := by
  cases node with
  | mapping entries =>
    have hentries : (entries.map fun entry =>
        (entry.1, if entry.1.text? = some name then f entry.2 else entry.2)).mapM ofEntry? =
          (entries.mapM ofEntry?).map (mapUnder name f) := by
      induction entries with
      | nil => rfl
      | cons entry entries ih =>
        obtain ⟨key, value⟩ := entry
        rw [List.map_cons, List.mapM_cons, List.mapM_cons, ih, ofEntry?, ofEntry?]
        cases key.text? with
        | none => rfl
        | some name' =>
          cases entries.mapM ofEntry? with
          | none => rfl
          | some fields => simp [mapUnder]
    rw [Yaml.mapUnder, ofClosedYaml?, ofYaml?, hentries, ofClosedYaml?, ofYaml?]
    cases entries.mapM ofEntry? with
    | none => rfl
    | some fields =>
      have hrepeats : known.any (repeats (mapUnder name f fields)) = known.any (repeats fields) :=
        any_repeats_congr fun other _ => repeats_mapUnder other
      have hall : (mapUnder name f fields).all (fun field => known.contains field.1) =
          fields.all fun field => known.contains field.1 := by
        rw [mapUnder, List.all_map]
        rfl
      simp only [Option.map_some, Option.filter_some, hrepeats]
      split
      · simp only [Option.filter_some, hall]
        split <;> rfl
      · rfl
  | scalar plain text => rfl
  | sequence items => rfl

end Fields

namespace Manifest

/-! ### Sources -/

theorem source?_keep (node : Yaml) : source? (node.keep sourceFields) = source? node := by
  rw [source?, source?, Fields.ofYaml?_keep]
  cases Fields.ofYaml? sourceFields node with
  | none => rfl
  | some fields =>
    have hlookup : ∀ name ∈ sourceFields,
        (Fields.keep sourceFields fields).lookup name = fields.lookup name :=
      fun name => Fields.lookup_keep
    simp only [Option.map_some, Option.bind_eq_bind, Option.bind_some, Fields.required?,
      Fields.optional?, Fields.withDefault?]
    rw [hlookup "name" (by decide), hlookup "path" (by decide), hlookup "format" (by decide),
      hlookup "inter_arrival_unit" (by decide), hlookup "benchmark_name" (by decide)]

/-- A list of sources without the entries that are no fields of a source. -/
def keepSources : Yaml → Yaml
  | .sequence items => .sequence (items.map (Yaml.keep sourceFields))
  | node => node

theorem sources?_keepSources (node : Yaml) : sources? (keepSources node) = sources? node := by
  cases node with
  | sequence items =>
    rw [keepSources, sources?, sources?, List.mapM_map]
    exact congrArg (items.mapM ·) (funext source?_keep)
  | scalar plain text => rfl
  | mapping entries => rfl

/-- A document without the entries of sources that are no fields of a source. -/
def knownPart (node : Yaml) : Yaml := node.mapUnder "sources" keepSources

theorem ofYaml?_knownPart (node : Yaml) : ofYaml? (knownPart node) = ofYaml? node := by
  rw [ofYaml?, ofYaml?, knownPart, Fields.ofClosedYaml?_mapUnder]
  cases Fields.ofClosedYaml? topFields node with
  | none => rfl
  | some fields =>
    have hsources :
        ((Fields.mapUnder "sources" keepSources fields).lookup "sources").bind sources? =
          (fields.lookup "sources").bind sources? := by
      rw [Fields.lookup_mapUnder, Option.bind_map]
      exact congrArg (Option.bind _) (funext sources?_keepSources)
    have hothers : ∀ other, other ≠ "sources" →
        (Fields.mapUnder "sources" keepSources fields).lookup other = fields.lookup other :=
      fun other => Fields.lookup_mapUnder_of_ne
    simp only [Option.map_some, Option.bind_eq_bind, Option.bind_some, Fields.required?,
      Fields.optional?, Fields.withDefault?, hsources]
    rw [hothers "rates" (by decide), hothers "format" (by decide), hothers "output" (by decide),
      hothers "name_prefix" (by decide)]

/-! ### What is refused -/

section Refused

variable {node : Yaml}

theorem ofYaml?_eq_none_of_top (h : node.HasUnknownKey topFields) : ofYaml? node = none := by
  rw [ofYaml?, Fields.ofClosedYaml?_eq_none h]
  rfl

theorem rates?_eq_none {rates : Yaml} (h : rates.HasUnknownKey rateFields) :
    Fields.nullable rates? rates = none := by
  have hnull : rates.isNull = false := by
    cases rates with
    | mapping entries => rfl
    | sequence items => rfl
    | scalar plain text =>
      obtain ⟨entry, hentry, -⟩ := h
      cases hentry
  rw [Fields.nullable, hnull, rates?, Fields.ofClosedYaml?_eq_none h]
  rfl

theorem ofYaml?_eq_none_of_rates {rates : Yaml} (hrates : rates ∈ node.under "rates")
    (h : rates.HasUnknownKey rateFields) : ofYaml? node = none := by
  rw [ofYaml?]
  cases hfields : Fields.ofClosedYaml? topFields node with
  | none => rfl
  | some fields =>
    have hlookup : fields.lookup "rates" = some rates :=
      Fields.lookup_of_mem_under (Option.filter_eq_some_iff.mp hfields).1 (by decide) hrates
    simp only [Option.bind_eq_bind, Option.bind_some, Fields.optional?, Fields.withDefault?,
      hlookup, rates?_eq_none h, Option.bind_none, Option.bind_fun_none]

theorem source?_eq_none {source : Yaml} (h : ∃ entry ∈ source.entries, entry.1.text? = none) :
    source? source = none := by
  obtain ⟨entry, hentry, hkey⟩ := h
  have hfields : Fields.ofYaml? sourceFields source = none := by
    refine Option.eq_none_iff_forall_ne_some.mpr fun fields hfields => ?_
    have hmem := List.mem_map_of_mem (f := fun entry => (entry.1.text?, entry.2)) hentry
    rw [Fields.entries_of_ofYaml? hfields] at hmem
    obtain ⟨field, -, heq⟩ := List.mem_map.mp hmem
    rw [hkey] at heq
    cases (Prod.mk.inj heq).1
  rw [source?, hfields]
  rfl

theorem sources?_eq_none {sources source : Yaml} (hsource : source ∈ sources.items)
    (h : source? source = none) : sources? sources = none := by
  cases sources with
  | scalar plain text => cases hsource
  | mapping entries => cases hsource
  | sequence items =>
    change source ∈ items at hsource
    rw [sources?]
    induction items with
    | nil => cases hsource
    | cons first items ih =>
      rw [List.mapM_cons]
      rcases List.mem_cons.mp hsource with rfl | hsource
      · rw [h]
        rfl
      · rw [ih hsource]
        cases source? first <;> rfl

theorem ofYaml?_eq_none_of_sources {sources source : Yaml}
    (hsources : sources ∈ node.under "sources") (hsource : source ∈ sources.items)
    (h : ∃ entry ∈ source.entries, entry.1.text? = none) : ofYaml? node = none := by
  rw [ofYaml?]
  cases hfields : Fields.ofClosedYaml? topFields node with
  | none => rfl
  | some fields =>
    have hlookup : fields.lookup "sources" = some sources :=
      Fields.lookup_of_mem_under (Option.filter_eq_some_iff.mp hfields).1 (by decide) hsources
    simp only [Option.bind_eq_bind, Option.bind_some, Fields.required?, hlookup,
      sources?_eq_none hsource (source?_eq_none h), Option.bind_none]

end Refused

/-- **A key that is no field is refused in a document and in its section on rates**, and so is one
that is no text in a source, whoever reads the document. An entry of a source under any other name
is passed over: the document is read as the one without it. -/
theorem unknown_fields_are_refused_above_sources {readYaml : String → Option Yaml} {text : String}
    {node : Yaml} (h : readYaml text = some node) :
    (node.HasUnknownKey topFields → read readYaml text = .error .malformed) ∧
      (∀ rates ∈ node.under "rates", rates.HasUnknownKey rateFields →
        read readYaml text = .error .malformed) ∧
      (∀ sources ∈ node.under "sources", ∀ source ∈ sources.items,
        (∃ entry ∈ source.entries, entry.1.text? = none) →
          read readYaml text = .error .malformed) ∧
      read readYaml text = ofYaml (knownPart node) := by
  have hread : read readYaml text = ofYaml node := by rw [read, h]
  have hrefused : ofYaml? node = none → read readYaml text = .error .malformed := by
    intro hnone
    rw [hread, ofYaml, hnone]
  refine ⟨fun htop => hrefused (ofYaml?_eq_none_of_top htop),
    fun rates hrates hkey => hrefused (ofYaml?_eq_none_of_rates hrates hkey),
    fun sources hsources source hsource hkey =>
      hrefused (ofYaml?_eq_none_of_sources hsources hsource hkey), ?_⟩
  rw [hread, ofYaml, ofYaml, ofYaml?_knownPart]

/-- A document whose section on rates names a unit. -/
def unitForRates : String :=
  "sources:\n  - {name: a, path: a.txt}\nrates:\n  inter_arrival_unit: microseconds\n"

theorem unit_for_rates_is_refused :
    ∃ node ∈ Yaml.read? unitForRates,
      (∃ rates ∈ node.under "rates", rates.HasUnknownKey rateFields) ∧
        read Yaml.read? unitForRates = .error .malformed := by
  have hread : ∃ node ∈ Yaml.read? unitForRates,
      ∃ rates ∈ node.under "rates", rates.HasUnknownKey rateFields := by
    decide +kernel
  obtain ⟨node, hnode, rates, hrates, hkey⟩ := hread
  exact ⟨node, hnode, ⟨rates, hrates, hkey⟩,
    (unknown_fields_are_refused_above_sources hnode).2.1 rates hrates hkey⟩

/-- A document with a source whose unit is misspelt. -/
def misspeltUnit : String :=
  "sources:\n  - name: a\n    path: a.txt\n    inter_arival_unit: microseconds\n"

/-- **A misspelt unit goes unnoticed.** The document is usable although one of its sources
has a key that is no field, and the source has the unit of one that names none. -/
theorem misspelt_unit_is_passed_over :
    (∃ node ∈ Yaml.read? misspeltUnit, ∃ sources ∈ node.under "sources",
        ∃ source ∈ sources.items, source.HasUnknownKey sourceFields) ∧
      ∃ m, read Yaml.read? misspeltUnit = .ok m ∧ m.sources = [.ofPath "a" "a.txt"] := by
  have hsources : (read Yaml.read? misspeltUnit).toOption.map sources =
      some [.ofPath "a" "a.txt"] := by
    decide +kernel
  refine ⟨by decide +kernel, ?_⟩
  cases hread : read Yaml.read? misspeltUnit with
  | error fault => simp [hread, Except.toOption] at hsources
  | ok m => exact ⟨m, rfl, by simpa [hread, Except.toOption] using hsources⟩

end Manifest

end BenchReport
