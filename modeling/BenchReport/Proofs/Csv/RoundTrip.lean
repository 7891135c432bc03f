import Mathlib
import BenchReport.Csv.Reader
import BenchReport.Csv.Writer
import BenchReport.Proofs.Text.Utf8

/-!
# What is written is read back

A field comes back from its text if it is **guarded**: it stands in quotes, or none of its
characters means anything to a reader (`BenchReport.Csv.IsGuarded`). With quotes where they are
necessary every field is guarded (`BenchReport.Csv.isGuarded_necessary`).

The reader goes from field to field. Between two fields it holds nothing but what it has
finished, so one field can be followed by itself, from a place where a field begins to the
character that ends it (`BenchReport.Csv.Cursor.takes_fieldText`). One thing has to be kept in
mind at the beginning of a record, where a reader skips line ends: a record must not be an empty
line. The writer sees to that, since it writes a record of one empty field as two quotes.

So the entries of a written text are its records (`BenchReport.Csv.entries_text`).
-/

namespace BenchReport.Csv

/-- A character that can stand between fields: a reader takes it for nothing else. -/
def IsDelimiter (d : Char) : Prop := d ≠ '"' ∧ d ≠ '\n' ∧ d ≠ '\r'

/-- A field whose text can be told from what stands around it. -/
def IsGuarded (style : QuoteStyle) (d : Char) (field : List Char) : Prop :=
  quotesField style d field = true ∨ ∀ x ∈ field, isSpecial d x = false

/-- **Quotes where they are necessary guard every field.** -/
theorem isGuarded_necessary (d : Char) (field : List Char) : IsGuarded .necessary d field := by
  rw [IsGuarded, quotesField]
  by_cases h : field.any (isSpecial d) = true
  · exact .inl h
  · exact .inr (by simpa using h)

theorem isSpecial_eq_false {d x : Char} (h : isSpecial d x = false) :
    x ≠ d ∧ x ≠ '"' ∧ x ≠ '\n' ∧ x ≠ '\r' := by
  simpa [isSpecial, and_assoc] using h

namespace Cursor

variable {d : Char} {c : Cursor} {field : List Char}

/-! ### One field -/

/-- Takes in a text. -/
def feedAll (d : Char) (c : Cursor) (text : List Char) : Cursor := (text.map some).foldl (feed d) c

@[simp] theorem feedAll_nil (d : Char) (c : Cursor) : c.feedAll d [] = c := rfl

@[simp] theorem feedAll_cons (d : Char) (c : Cursor) (x : Char) (text : List Char) :
    c.feedAll d (x :: text) = (c.feed d (some x)).feedAll d text := rfl

@[simp] theorem feedAll_append (d : Char) (c : Cursor) (s t : List Char) :
    c.feedAll d (s ++ t) = (c.feedAll d s).feedAll d t := by
  simp [feedAll]

/-- The reader is where a field begins. -/
structure IsFresh (c : Cursor) : Prop where
  /-- It stands before a first or a later field. -/
  place : c.place = .recordStart ∨ c.place = .fieldStart
  /-- Nothing of the field is read. -/
  field : c.field = []

/-- **The reader takes a text for a field.** Behind it the field is open and ends at the next
character, and nothing is passed over but an empty text. -/
structure Takes (d : Char) (c : Cursor) (text field : List Char) : Prop where
  /-- The open field is the one that was meant. -/
  field : (c.feedAll d text).field = (field.map some).reverse
  /-- The fields before it are what they were. -/
  fields : (c.feedAll d text).fields = c.fields
  /-- So are the records. -/
  records : (c.feedAll d text).records = c.records
  /-- No quote is left open. -/
  place : (c.feedAll d text).place ≠ .inQuotes
  /-- A reader that is still before the record has seen nothing. -/
  start : (c.feedAll d text).place = .recordStart → c.place = .recordStart ∧ text = []

/-- Between quotes, a character is taken for itself and two quotes for one. -/
theorem feedAll_doubled (field : List Char) (h : c.place = .inQuotes) :
    c.feedAll d (field.flatMap fun x => if x = '"' then ['"', '"'] else [x]) =
      { c with field := (field.map some).reverse ++ c.field } := by
  induction field generalizing c with
  | nil => rfl
  | cons x field ih =>
    have hx : c.feedAll d (if x = '"' then ['"', '"'] else [x]) = c.push .inQuotes (some x) := by
      split
      · rename_i hx
        subst hx
        simp [feed, h, push]
      · rename_i hx
        simp [feed, h, hx]
    rw [List.flatMap_cons, feedAll_append, hx, ih rfl]
    simp [push, h]

theorem takes_quoted (hc : c.IsFresh) : Takes d c (quoted field) field := by
  have hopen : c.feed d (some '"') = { c with place := .inQuotes } := by
    rcases hc.place with h | h <;> simp [feed, h, isLineEnd]
  have hread : c.feedAll d (quoted field) =
      { c with place := .afterQuote, field := (field.map some).reverse } := by
    rw [quoted, List.cons_append, feedAll_cons, hopen, feedAll_append, feedAll_doubled _ rfl]
    simp [feed, hc.field]
  constructor <;> simp [hread]

theorem feedBare_plain {x : Char} (hx : isSpecial d x = false) :
    c.feedBare d (some x) = c.push .bare (some x) := by
  obtain ⟨hd, -, hn, hr⟩ := isSpecial_eq_false hx
  simp [feedBare, isLineEnd, hd, hn, hr]

/-- Without quotes, a character that means nothing is taken for itself. -/
theorem feedAll_plain (hplain : ∀ x ∈ field, isSpecial d x = false) (h : c.place = .bare) :
    c.feedAll d field = { c with field := (field.map some).reverse ++ c.field } := by
  induction field generalizing c with
  | nil => rfl
  | cons x field ih =>
    obtain ⟨hx, hplain⟩ := List.forall_mem_cons.mp hplain
    have hfirst : c.feed d (some x) = c.push .bare (some x) := by
      rw [feed, h]
      exact feedBare_plain hx
    rw [feedAll_cons, hfirst, ih hplain rfl]
    simp [push, h]

theorem takes_plain (hc : c.IsFresh) (hplain : ∀ x ∈ field, isSpecial d x = false) :
    Takes d c field field := by
  cases field with
  | nil =>
    refine ⟨hc.field, rfl, rfl, ?_, fun h => ⟨h, rfl⟩⟩
    rcases hc.place with h | h <;> simp [h]
  | cons x field =>
    obtain ⟨hx, hplain⟩ := List.forall_mem_cons.mp hplain
    obtain ⟨-, hquote, hn, hr⟩ := isSpecial_eq_false hx
    have hfirst : c.feed d (some x) = c.push .bare (some x) := by
      rcases hc.place with h | h <;> simp [feed, h, isLineEnd, hquote, hn, hr, feedBare_plain hx]
    have hread : c.feedAll d (x :: field) =
        { c with place := .bare, field := ((x :: field).map some).reverse } := by
      rw [feedAll_cons, hfirst, feedAll_plain hplain rfl]
      simp [push, hc.field]
    constructor <;> simp [hread]

/-- **A guarded field is taken from its text.** -/
theorem takes_fieldText {style : QuoteStyle} (hc : c.IsFresh) (h : IsGuarded style d field) :
    Takes d c (fieldText style d field) field := by
  rw [fieldText]
  split
  · exact takes_quoted hc
  · rename_i hbare
    exact takes_plain hc (h.resolve_left hbare)

/-! ### What ends a field -/

section Ends

variable {text : List Char}

theorem Takes.feed_delimiter (h : Takes d c text field) (hd : IsDelimiter d) :
    (c.feedAll d text).feed d (some d) =
      ⟨.fieldStart, [], field.map some :: c.fields, c.records⟩ := by
  obtain ⟨hquote, hn, hr⟩ := hd
  have hend : (c.feedAll d text).feed d (some d) = (c.feedAll d text).endField := by
    have hplace := h.place
    rw [feed]
    split <;> simp_all [feedBare, isLineEnd]
  rw [hend, endField, h.field, h.fields, h.records, List.reverse_reverse]

theorem Takes.feed_newline (h : Takes d c text field) (hd : IsDelimiter d)
    (hstart : c.place = .fieldStart ∨ text ≠ []) :
    (c.feedAll d text).feed d (some '\n') =
      ⟨.recordStart, [], [], (c.fields.reverse ++ [field.map some]) :: c.records⟩ := by
  obtain ⟨hquote, hn, hr⟩ := hd
  have hend : (c.feedAll d text).feed d (some '\n') = (c.feedAll d text).endRecord := by
    have hplace := h.place
    have hbegun : (c.feedAll d text).place ≠ .recordStart := by
      intro hat
      obtain ⟨hrecord, hempty⟩ := h.start hat
      rcases hstart with hfield | hne
      · rw [hrecord] at hfield
        cases hfield
      · exact hne hempty
    rw [feed]
    split <;> simp_all [feedBare, isLineEnd, Ne.symm hn]
  rw [hend, endRecord, h.field, h.fields, h.records, List.reverse_reverse, List.reverse_cons]

end Ends

/-! ### Records -/

/-- **The fields of a line come back from it**, be it empty or not, if the reader knows that
there is one. -/
theorem feedAll_delimited {style : QuoteStyle} (hd : IsDelimiter d) {fields : List (List Char)}
    (hne : fields ≠ []) (hguarded : ∀ field ∈ fields, IsGuarded style d field) (hc : c.IsFresh)
    (hstart : c.place = .fieldStart ∨ delimited d (fields.map (fieldText style d)) ≠ []) :
    c.feedAll d (delimited d (fields.map (fieldText style d)) ++ ['\n']) =
      ⟨.recordStart, [], [], (c.fields.reverse ++ fields.map (List.map some)) :: c.records⟩ := by
  induction fields generalizing c with
  | nil => exact absurd rfl hne
  | cons field fields ih =>
    obtain ⟨hfield, hguarded⟩ := List.forall_mem_cons.mp hguarded
    have htakes := takes_fieldText hc hfield
    cases fields with
    | nil =>
      rw [List.map_singleton, delimited] at hstart ⊢
      rw [feedAll_append, feedAll_cons, htakes.feed_newline hd hstart]
      rfl
    | cons second fields =>
      rw [List.map_cons, List.map_cons, delimited, List.append_assoc, List.cons_append,
        feedAll_append, feedAll_cons, htakes.feed_delimiter hd, ← List.map_cons,
        ih (List.cons_ne_nil _ _) hguarded ⟨.inr rfl, rfl⟩ (.inl rfl)]
      · simp
      · exact List.cons_ne_nil _ _

/-- Only the record of one empty field would be an empty line. -/
theorem eq_of_delimited_eq_nil {style : QuoteStyle} {fields : List (List Char)}
    (hne : fields ≠ []) (h : delimited d (fields.map (fieldText style d)) = []) :
    fields = [[]] := by
  match fields with
  | [] => exact absurd rfl hne
  | [field] =>
    rw [List.map_singleton, delimited, fieldText] at h
    split at h
    · cases h
    · rw [h]
  | first :: second :: rest =>
    rw [List.map_cons, List.map_cons, delimited] at h
    · exact absurd h (List.append_ne_nil_of_right_ne_nil _ (List.cons_ne_nil _ _))
    · exact List.cons_ne_nil _ _

/-- **A record comes back from its text.** -/
theorem feedAll_recordText {style : QuoteStyle} (hd : IsDelimiter d) {fields : List (List Char)}
    (hne : fields ≠ []) (hguarded : ∀ field ∈ fields, IsGuarded style d field)
    (records : List (List (List Symbol))) :
    feedAll d ⟨.recordStart, [], [], records⟩ (recordText style d fields) =
      ⟨.recordStart, [], [], fields.map (List.map some) :: records⟩ := by
  have hfresh : IsFresh ⟨.recordStart, [], [], records⟩ := ⟨.inl rfl, rfl⟩
  rw [recordText]
  by_cases hempty : delimited d (fields.map (fieldText style d)) = []
  · -- the two quotes that stand for the line are those of its empty field
    obtain rfl := eq_of_delimited_eq_nil hne hempty
    have htakes : Takes d ⟨.recordStart, [], [], records⟩ (quoted []) [] := takes_quoted hfresh
    simp only [hempty, List.isEmpty_nil, if_true]
    change feedAll d ⟨.recordStart, [], [], records⟩ (quoted [] ++ ['\n']) = _
    rw [feedAll_append, feedAll_cons, htakes.feed_newline hd (.inr (List.cons_ne_nil _ _))]
    rfl
  · simp only [List.isEmpty_iff, hempty, if_false]
    exact feedAll_delimited hd hne hguarded hfresh (.inr hempty)

/-- **Records come back from their text**, one behind the other. -/
theorem feedAll_text {style : QuoteStyle} (hd : IsDelimiter d) {records : List (List (List Char))}
    (hne : ∀ fields ∈ records, fields ≠ [])
    (hguarded : ∀ fields ∈ records, ∀ field ∈ fields, IsGuarded style d field)
    (before : List (List (List Symbol))) :
    feedAll d ⟨.recordStart, [], [], before⟩ (text style d records) =
      ⟨.recordStart, [], [],
        (records.map fun fields => fields.map (List.map some)).reverse ++ before⟩ := by
  induction records generalizing before with
  | nil => rfl
  | cons fields records ih =>
    obtain ⟨hfields, hne⟩ := List.forall_mem_cons.mp hne
    obtain ⟨hfirst, hguarded⟩ := List.forall_mem_cons.mp hguarded
    rw [text, List.flatMap_cons, ← text, feedAll_append, feedAll_recordText hd hfields hfirst,
      ih hne hguarded]
    simp

end Cursor

/-! ### Texts -/

theorem ofFields_map_some (fields : List (List Char)) :
    Entry.ofFields (fields.map (List.map some)) = .record fields := by
  have hchars : fieldChars? ∘ List.map some = some := by
    funext field
    simp [fieldChars?, List.all_map, List.filterMap_map]
  rw [Entry.ofFields, List.mapM_map, hchars]
  have hall : fields.mapM some = some fields := by
    simpa using List.mapM_pure (m := Option) (l := fields) (f := id)
  rw [hall]

/-- **The entries of a written text are its records**, whatever their fields hold, if every
field is guarded and the text does not begin with a byte order mark. -/
theorem entries_text {style : QuoteStyle} {records : List (List (List Char))}
    (hne : ∀ fields ∈ records, fields ≠ [])
    (hguarded : ∀ fields ∈ records, ∀ field ∈ fields, IsGuarded style ',' field)
    (hmark : ∀ x ∈ (text style ',' records).head?, x.toNat ≠ 0xfeff) :
    entries (.ofBytes (Text.encode (String.ofList (text style ',' records)))) =
      records.map .record := by
  have hunits : Text.units (Text.encode (String.ofList (text style ',' records))) =
      (text style ',' records).map some := by
    rw [Text.encode_eq, String.toList_ofList, Text.units_flatMap]
  have hdrop : dropByteOrderMark ((text style ',' records).map some) =
      (text style ',' records).map some := by
    cases htext : text style ',' records with
    | nil => rfl
    | cons x rest =>
      rw [htext] at hmark
      rw [List.map_cons, dropByteOrderMark, if_neg (hmark x rfl)]
  have hd : IsDelimiter ',' := ⟨by decide, by decide, by decide⟩
  have hscan : scan ',' (.ofBytes (Text.encode (String.ofList (text style ',' records)))) =
      ⟨.recordStart, [], [], (records.map fun fields => fields.map (List.map some)).reverse⟩ := by
    rw [scan, Text.Stream.ofBytes]
    simp only [hunits, hdrop]
    have hfed := Cursor.feedAll_text hd hne hguarded []
    rw [Cursor.feedAll] at hfed
    rw [Cursor.start, hfed, List.append_nil]
    rfl
  rw [entries, hscan]
  simp [Text.Stream.ofBytes, ofFields_map_some]

end BenchReport.Csv
