import Mathlib
import BenchReport.Proofs.Report.Pairs
import BenchReport.Proofs.ResultLine.Form
import BenchReport.Proofs.Text.Integer
import BenchReport.Proofs.Text.Pieces
import BenchReport.Proofs.Text.Words

/-!
# Samples as they are written

Two scans go over a line of samples. One decides whether the line holds samples at all, the
other takes the integers out of it, and the two do not ask for the same: the first lets
through whatever opens a bracket, the second takes every run of digits and passes over the
rest. So there is one thing to be said of all lines and one of most.

| line of samples | what it gives | theorem |
|---|---|---|
| any | its runs of digits, in order, or nothing | `BenchReport.Paired.readingOf_of_isReadable` |
| a list of integers | its entries are its runs | `BenchReport.Paired.runs_of_isList` |
| any without a bracket | it is such a list | `BenchReport.Paired.isList_of_isSampleLine` |

A line that opens a bracket need not hold a list, and then its runs are parts of what it
holds: a fraction is taken for two integers, a negative number for a positive one
(`BenchReport.Paired.samples_of_fraction_and_negative`).
-/

namespace BenchReport.Paired

variable {options : ReadOptions}

/-! ### Integers in a line -/

/-- The runs of digits in a text, of digits of any script. -/
def runs (text : List Char) : List (List Char) :=
  Text.pieces (fun c => !Text.isDecimalDigit c) text

/-- **Integers without signs are the runs of digits.** -/
theorem integers_eq_runs (text : List Char) : integers false text = runs text := by
  have hscan : ∃ pieces, text.splitOnP (fun c => !Text.isDecimalDigit c) =
      (text.foldr (Scan.extend false) ⟨[], []⟩).current :: pieces ∧
      (text.foldr (Scan.extend false) ⟨[], []⟩).closed =
        pieces.filter fun piece => !piece.isEmpty := by
    induction text with
    | nil => exact ⟨[], rfl, rfl⟩
    | cons c text ih =>
      obtain ⟨pieces, hsplit, hclosed⟩ := ih
      rw [List.splitOnP_cons_eq_if_modifyHead, hsplit, List.foldr_cons, Scan.extend]
      cases hc : Text.isDecimalDigit c with
      | true => exact ⟨pieces, by simp, by simp [hclosed]⟩
      | false =>
        refine ⟨_, by simp; rfl, ?_⟩
        simp only [Bool.false_and, Bool.false_eq_true, if_false, Scan.integers, hclosed,
          List.filter_cons]
        split <;> simp_all
  obtain ⟨pieces, hsplit, hclosed⟩ := hscan
  rw [integers, runs, Text.pieces, hsplit, Scan.integers, hclosed, List.filter_cons]
  split <;> simp_all

/-- A run of digits is read if its digits are those of a number within 64 bits. -/
theorem readUnsigned_run_eq_ok_iff {text run : List Char} (h : run ∈ runs text) {n : UInt64} :
    Text.readUnsigned run = .ok n ↔ Text.IsDigits run ∧ n.toNat = Text.spelled run := by
  rw [Text.readUnsigned_eq_ok_iff]
  constructor
  · rintro ⟨digits, hdigits, rfl | rfl, hn⟩
    · exact ⟨hdigits, hn⟩
    · -- a run does not begin with a plus
      have hplus := (Text.mem_of_mem_pieces h (a := '+') (by simp)).2
      cases hplus
  · rintro ⟨hdigits, hn⟩
    exact ⟨run, hdigits, .inl rfl, hn⟩

/-- **Texts are read together exactly when each of them is read.** -/
theorem readAll_eq_ok_iff {α : Type} {read : List Char → Except Text.IntegerFault α}
    {texts : List (List Char)} {values : List α} :
    readAll read texts = .ok values ↔
      List.Forall₂ (fun text value => read text = .ok value) texts values := by
  induction texts generalizing values with
  | nil =>
    rw [readAll, List.forall₂_nil_left_iff, Except.ok.injEq]
    exact eq_comm
  | cons text texts ih =>
    rw [readAll, List.forall₂_cons_left_iff]
    cases htext : read text with
    | error fault => simp
    | ok value =>
      constructor
      · intro h
        cases hrest : readAll read texts with
        | error fault => rw [hrest] at h; cases h
        | ok rest =>
          rw [hrest] at h
          exact ⟨value, rest, rfl, ih.mp hrest, (Except.ok.inj h).symm⟩
      · rintro ⟨_, rest, hvalue, hrest, rfl⟩
        obtain rfl := Except.ok.inj hvalue
        rw [ih.mpr hrest]
        rfl

/-! ### What a pair gives -/

/-- Whether a header with its samples can be read: the header holds three integers, the
samples hold runs of ASCII digits, and all are in range. -/
def IsReadable (pair : Text.Line × Text.Line) : Prop :=
  (∃ clients mergeRate streamRate, readAll Text.readSigned (integers true pair.1.text) =
      .ok [clients, mergeRate, streamRate]) ∧
    ∀ run ∈ runs pair.2.text, Text.IsDigits run ∧ Text.spelled run < UInt64.size

/-- Whether a measurement is what an integer says: so many nanoseconds, in milliseconds. -/
def IsSampleOf (name : String) (digits : List Char) (m : Measurement) : Prop :=
  m.name = name ∧
    ∃ n : UInt64, n.toNat = Text.spelled digits ∧ m.shape = .sample (n.toFloat / 1000000)

theorem readPair_eq_block_iff {header samples : Text.Line} {b : Block} :
    readPair header samples = .block b ↔
      readAll Text.readSigned (integers true header.text) =
          .ok [b.clients, b.mergeRate, b.streamRate] ∧
        readAll Text.readUnsigned (integers false samples.text) = .ok b.samples := by
  rw [readPair]
  split
  · rename_i fault hheader
    simp [hheader]
  · rename_i clients mergeRate streamRate hheader
    rw [hheader]
    cases readAll Text.readUnsigned (integers false samples.text) with
    | error fault => simp
    | ok values =>
      cases b
      simp [and_assoc]
  · rename_i values hcount hheader
    rw [hheader]
    refine iff_of_false (by simp) ?_
    rintro ⟨hvalues, -⟩
    exact hcount _ _ _ (Except.ok.inj hvalues)

/-- **A pair that is not read as a block** gives nothing, and both of its lines are damaged. -/
theorem readPair_of_ne_block {header samples : Text.Line}
    (h : ∀ b, readPair header samples ≠ .block b) (name : String) :
    (readPair header samples).measurements name = [] ∧
      (readPair header samples).tally = { Tally.zero with lines := 2, malformed := 2 } := by
  have hpair := (readPair_kind header samples).1
  cases hr : readPair header samples with
  | blank | stray | dangling => rw [hr] at hpair; cases hpair
  | miscounted | faulty => exact ⟨rfl, rfl⟩
  | block b => exact absurd hr (h b)

theorem forall₂_readUnsigned_iff {text : List Char} {values : List UInt64} :
    List.Forall₂ (fun run n => Text.readUnsigned run = .ok n) (runs text) values ↔
      List.Forall₂ (fun run n => Text.IsDigits run ∧ n.toNat = Text.spelled run) (runs text)
        values := by
  simp only [List.forall₂_iff_get]
  refine and_congr_right fun _ => forall₂_congr fun i hi => forall_congr' fun hj => ?_
  exact readUnsigned_run_eq_ok_iff (List.get_mem ..)

/-- **A pair is read as a block exactly if it is readable**, and then its samples are the
numbers that the runs of digits spell. -/
theorem readingOf_eq_block_of_isReadable {pair : Text.Line × Text.Line} (h : IsReadable pair) :
    ∃ clients mergeRate streamRate, readingOf pair =
      .block ⟨clients, mergeRate, streamRate,
        (runs pair.2.text).map fun run => UInt64.ofNat (Text.spelled run)⟩ := by
  obtain ⟨⟨clients, mergeRate, streamRate, hheader⟩, hruns⟩ := h
  refine ⟨clients, mergeRate, streamRate, readPair_eq_block_iff.mpr ⟨hheader, ?_⟩⟩
  rw [readAll_eq_ok_iff, integers_eq_runs, forall₂_readUnsigned_iff, List.forall₂_map_right_iff,
    List.forall₂_same]
  exact fun run hrun => ⟨(hruns run hrun).1, UInt64.toNat_ofNat_of_lt' (hruns run hrun).2⟩

theorem isReadable_of_readingOf_eq_block {pair : Text.Line × Text.Line} {b : Block}
    (h : readingOf pair = .block b) : IsReadable pair := by
  obtain ⟨hheader, hsamples⟩ := readPair_eq_block_iff.mp h
  rw [readAll_eq_ok_iff, integers_eq_runs, forall₂_readUnsigned_iff] at hsamples
  refine ⟨⟨_, _, _, hheader⟩, fun run hrun => ?_⟩
  obtain ⟨i, hi, rfl⟩ := List.getElem_of_mem hrun
  obtain ⟨hdigits, hn⟩ := hsamples.get hi (hsamples.length_eq ▸ hi)
  exact ⟨hdigits, hn ▸ UInt64.toNat_lt_size _⟩

/-- **Readable samples give their runs of digits in order**, whatever stands between them. -/
theorem readingOf_of_isReadable {pair : Text.Line × Text.Line} (h : IsReadable pair)
    (name : String) :
    List.Forall₂ (IsSampleOf name) (runs pair.2.text) ((readingOf pair).measurements name) ∧
      (readingOf pair).tally.malformed = 0 := by
  obtain ⟨clients, mergeRate, streamRate, hblock⟩ := readingOf_eq_block_of_isReadable h
  rw [hblock]
  refine ⟨?_, rfl⟩
  rw [Reading.measurements, Block.measurements, List.forall₂_map_right_iff,
    List.forall₂_map_right_iff, List.forall₂_same]
  exact fun run hrun => ⟨rfl, _, UInt64.toNat_ofNat_of_lt' (h.2 run hrun).2, rfl⟩

theorem readingOf_of_not_isReadable {pair : Text.Line × Text.Line} (h : ¬IsReadable pair)
    (name : String) :
    (readingOf pair).measurements name = [] ∧ (readingOf pair).tally.malformed = 2 := by
  obtain ⟨hnone, htally⟩ :=
    readPair_of_ne_block (fun b hb => h (isReadable_of_readingOf_eq_block hb)) name
  exact ⟨hnone, congrArg Tally.malformed htally⟩

/-! ### Lists of integers -/

/-- What stands between blanks and commas. -/
def entries (body : List Char) : List (List Char) :=
  Text.pieces (fun c => Text.isBlank c || c = ',') body

/-- Whether a line is a list of unsigned integers between blanks and commas, as it stands or
in one pair of brackets; `body` is what the brackets hold. -/
def IsList (text body : List Char) : Prop :=
  (Text.trim text = body ∨ Text.trim text = '[' :: (body ++ [']'])) ∧
    ∀ entry ∈ entries body, Text.IsDigits entry

/-- Every character of a list is a digit or stands between digits. -/
theorem sep_eq_of_isList {text body : List Char} (h : IsList text body) :
    ∀ c ∈ body, (!Text.isDecimalDigit c) = (Text.isBlank c || decide (c = ',')) := by
  intro c hc
  cases hsep : Text.isBlank c || decide (c = ',') with
  | false =>
    obtain ⟨entry, hentry, hmem⟩ :=
      @Text.exists_mem_pieces _ (fun c => Text.isBlank c || c = ',') _ _ hc hsep
    rw [Text.isDecimalDigit_of_isDigit ((h.2 entry hentry).2 c hmem)]
    rfl
  | true =>
    rw [Bool.or_eq_true, decide_eq_true_eq] at hsep
    rcases hsep with hblank | rfl
    · rw [ResultLine.isDecimalDigit_of_isBlank hblank]
      rfl
    · decide

/-- **The runs of a list are its entries.** -/
theorem runs_of_isList {text body : List Char} (h : IsList text body) :
    runs text = entries body := by
  have hblank : ∀ s : List Char, (∀ c ∈ s, Text.isBlank c = true) →
      ∀ c ∈ s, (!Text.isDecimalDigit c) = true := by
    intro s hs c hc
    rw [ResultLine.isDecimalDigit_of_isBlank (hs c hc)]
    rfl
  obtain ⟨l, r, htext, hl, hr⟩ := Text.exists_trim text
  rw [runs, htext, Text.pieces_surrounded _ (hblank l hl) (hblank r hr), entries,
    ← Text.pieces_congr (sep_eq_of_isList h)]
  rcases h.1 with hbody | hbody
  · rw [hbody]
  · rw [hbody]
    exact Text.pieces_surrounded (l := ['[']) (r := [']']) body (by simp; rfl) (by simp; rfl)

/-- **Samples without a bracket are a list.** -/
theorem isList_of_isSampleLine {text : List Char} (h : isSampleLine text = true)
    (hopen : (Text.trim text).head? ≠ some '[') : IsList text (Text.trim text) := by
  have hall : ∀ c ∈ Text.trim text, c.isDigit || Text.isBlank c || c = ',' := by
    rw [isSampleLine] at h
    split at h
    · rename_i heq
      exact absurd (by rw [heq]; rfl) hopen
    · exact List.all_eq_true.mp h
  refine ⟨.inl rfl, fun entry hentry => ⟨?_, fun c hc => ?_⟩⟩
  · rintro rfl
    exact absurd (List.mem_filter.mp hentry).2 (by simp)
  · obtain ⟨hmem, hsep⟩ := Text.mem_of_mem_pieces hentry hc
    have hc' := hall c hmem
    rw [Bool.or_assoc, hsep, Bool.or_false] at hc'
    exact hc'

/-! ### Streams -/

/-- **Samples are given as they are written.** A stream gives the measurements of its pairs of
a header and samples, and nothing else: a line that is not blank and in no pair is damaged.
The samples of a pair give their runs of digits, in order, or they give nothing and the pair
is damaged. The runs are the samples themselves, entry by entry, in every line that does not
open a bracket, and behind a bracket if the brackets hold a list. -/
theorem samples_of_ofStream (options : ReadOptions) (name : String) (bytes : List UInt8) :
    let lines := Text.lines bytes
    ∃ report alone, ofStream options name (.ofBytes bytes) = .ok report ∧
      report.measurements =
        (pairs options lines).flatMap (fun p => (readingOf p).measurements name) ∧
      (printed lines).length = alone + 2 * (pairs options lines).length ∧
      report.tally.malformed =
        alone + ((pairs options lines).map fun p => (readingOf p).tally.malformed).sum ∧
      ∀ pair ∈ pairs options lines,
        (IsReadable pair → List.Forall₂ (IsSampleOf name) (runs pair.2.text)
            ((readingOf pair).measurements name) ∧ (readingOf pair).tally.malformed = 0) ∧
          (¬IsReadable pair → (readingOf pair).measurements name = [] ∧
            (readingOf pair).tally.malformed = 2) ∧
          (((Text.trim pair.2.text).head? = some '[' → ∃ body, IsList pair.2.text body) →
            ∃ body, IsList pair.2.text body ∧ runs pair.2.text = entries body) := by
  intro lines
  obtain ⟨alone, hprinted, htally⟩ := @exists_tally_ofLines options name lines
  refine ⟨ofLines options name lines, alone, rfl, measurements_ofLines name lines, hprinted, ?_,
    fun pair hpair => ⟨fun h => readingOf_of_isReadable h name,
      fun h => readingOf_of_not_isReadable h name, fun hopen => ?_⟩⟩
  · rw [htally, Tally.add_def, Tally.add_def, Tally.nsmul_def, Tally.nsmul_def]
    simp [Tally.unmatchedLine, Tally.damagedLine, Tally.zero, Tally.malformed_sum,
      Function.comp_def]
  · have hlist : ∃ body, IsList pair.2.text body := by
      by_cases hhead : (Text.trim pair.2.text).head? = some '['
      · exact hopen hhead
      · exact ⟨_, isList_of_isSampleLine (mem_pairs hpair).2.2.2 hhead⟩
    obtain ⟨body, hbody⟩ := hlist
    exact ⟨body, hbody, runs_of_isList hbody⟩

/-- Samples in brackets, with blanks around them and a comma between two. -/
theorem samples_of_bracketed_list :
    let lines := Text.lines (Text.encode "Clients: 1, MergeRate: 2, StreamRate: 3\n [4 5,6] \n")
    ∃ report alone, ofStream ⟨.default, none⟩ "L" (.ofBytes (Text.encode
        "Clients: 1, MergeRate: 2, StreamRate: 3\n [4 5,6] \n")) = .ok report ∧
      (printed lines).length = alone + 2 ∧ report.tally.malformed = alone ∧
      List.Forall₂ (IsSampleOf "L") [['4'], ['5'], ['6']] report.measurements ∧
      ∃ body, IsList " [4 5,6] ".toList body ∧ entries body = [['4'], ['5'], ['6']] := by
  intro lines
  obtain ⟨report, alone, hreport, hmeasurements, hprinted, hmalformed, hpairs⟩ :=
    samples_of_ofStream ⟨.default, none⟩ "L" (Text.encode
      "Clients: 1, MergeRate: 2, StreamRate: 3\n [4 5,6] \n")
  let pair : Text.Line × Text.Line :=
    (⟨1, "Clients: 1, MergeRate: 2, StreamRate: 3".toList⟩, ⟨2, " [4 5,6] ".toList⟩)
  have hpair : pairs ⟨.default, none⟩ lines = [pair] := by decide +kernel
  change report.measurements = (pairs _ lines).flatMap _ at hmeasurements
  change (printed lines).length = _ + 2 * (pairs _ lines).length at hprinted
  change _ = _ + ((pairs _ lines).map _).sum at hmalformed
  change ∀ pair ∈ pairs _ lines, _ at hpairs
  rw [hpair] at hmeasurements hprinted hmalformed hpairs
  obtain ⟨hreadable, -, hlist⟩ := hpairs pair List.mem_cons_self
  have hruns : runs pair.2.text = [['4'], ['5'], ['6']] := by decide +kernel
  obtain ⟨hsamples, hnone⟩ := hreadable ⟨⟨1, 2, 3, rfl⟩, by
    rw [hruns]
    decide⟩
  have hentries : entries "4 5,6".toList = [['4'], ['5'], ['6']] := by decide +kernel
  obtain ⟨body, hbody, heq⟩ := hlist fun _ =>
    ⟨"4 5,6".toList, .inr (by decide), by rw [hentries]; decide⟩
  refine ⟨report, alone, hreport, hprinted, by simp [hmalformed, hnone], ?_, body, hbody,
    heq.symm.trans hruns⟩
  rw [hmeasurements, ← hruns]
  simpa using hsamples

/-- **A fraction and a negative number between brackets** are taken for three samples, and
nothing is counted as damaged: the line is no list of integers, and its runs are. -/
theorem samples_of_fraction_and_negative :
    let bytes := Text.encode "Clients: 1, MergeRate: 2, StreamRate: 3\n[1.5 -2]\n"
    ∃ report, ofStream ⟨.default, none⟩ "L" (.ofBytes bytes) = .ok report ∧
      report.tally.malformed = 0 ∧
      report.measurements.map Measurement.shape =
        [.sample (Block.millis 1), .sample (Block.millis 5), .sample (Block.millis 2)] ∧
      ∀ pair ∈ pairs ⟨.default, none⟩ (Text.lines bytes), ¬∃ body, IsList pair.2.text body := by
  intro bytes
  let pair : Text.Line × Text.Line :=
    (⟨1, "Clients: 1, MergeRate: 2, StreamRate: 3".toList⟩, ⟨2, "[1.5 -2]".toList⟩)
  have hpair : pairs ⟨.default, none⟩ (Text.lines bytes) = [pair] := by decide +kernel
  have hblock : readingOf pair = .block ⟨1, 2, 3, [1, 5, 2]⟩ :=
    readPair_eq_block_iff.mpr ⟨rfl, rfl⟩
  refine ⟨_, rfl, by decide +kernel, ?_, ?_⟩
  · have hmeasurements := @measurements_ofLines ⟨.default, none⟩ "L" (Text.lines bytes)
    rw [hpair, List.flatMap_singleton, hblock] at hmeasurements
    exact congrArg (List.map Measurement.shape) hmeasurements
  · rw [hpair]
    rintro _ hmem ⟨body, hbody⟩
    obtain rfl := List.mem_singleton.mp hmem
    -- the point would have to be a digit or stand between digits
    have hpoint : '.' ∈ body := by
      have hmem : '.' ∈ Text.trim pair.2.text := by decide
      rcases hbody.1 with h | h <;> rw [h] at hmem
      · exact hmem
      · simpa using hmem
    have hsep := sep_eq_of_isList hbody '.' hpoint
    exact absurd hsep (by decide)

end BenchReport.Paired
