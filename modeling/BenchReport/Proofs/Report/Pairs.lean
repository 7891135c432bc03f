import Mathlib
import BenchReport.Proofs.Report.Resync

/-!
# Headers and their samples

The reader of a paired-line report goes through the lines with one header in mind. What it
does can be said without going through them: leave out the blank lines, and look at each line
and the one behind it. The two are a **pair** if the first can be a header and the second
holds samples (`BenchReport.Paired.pairs`). Pairs are read in their order
(`BenchReport.Paired.filter_isPair_readings`), so a report has the measurements of its pairs
(`BenchReport.Paired.measurements_ofLines`). Every other line is counted by itself: a blank
line as one without a form, any other as damaged (`BenchReport.Paired.exists_tally_ofLines`).

Nor has a line to be reached in order to know which header waits for it: it is the last line
before it that is not blank, if that can be a header
(`BenchReport.Paired.header_foldl_feed`).
-/

namespace BenchReport.Paired

open Progress

variable {options : ReadOptions}

/-! ### Kinds of lines -/

/-- The lines that are not blank. -/
def printed (lines : List Text.Line) : List Text.Line :=
  lines.filter fun line => !isBlankLine line.text

/-- Whether a line can be a header: it is not too long, and it does not hold samples. -/
def isHeader (options : ReadOptions) (line : Text.Line) : Bool :=
  !(options.limits.maxLineLength < line.length || isSampleLine line.text)

/-- **The headers with their samples**: of each two neighbours that are not blank, those that
fit together. -/
def pairs (options : ReadOptions) (lines : List Text.Line) : List (Text.Line × Text.Line) :=
  ((printed lines).zip (printed lines).tail).filter fun pair =>
    isHeader options pair.1 && isSampleLine pair.2.text

/-- The header that waits for samples behind some lines: the last line that is not blank, if
it can be a header. -/
def waiting (options : ReadOptions) (lines : List Text.Line) : Option Text.Line :=
  (printed lines).getLast?.filter (isHeader options)

theorem isHeader_eq_false_of_isSampleLine {line : Text.Line} (h : isSampleLine line.text = true) :
    isHeader options line = false := by
  simp [isHeader, h]

theorem length_le_of_isHeader {line : Text.Line} (h : isHeader options line = true) :
    line.length ≤ options.limits.maxLineLength := by
  simp only [isHeader, Bool.not_eq_true', Bool.or_eq_false_iff, decide_eq_false_iff_not,
    Nat.not_lt] at h
  exact h.1

/-- A blank line passes the test for samples, so it cannot be a header. -/
theorem isSampleLine_of_isBlankLine {text : List Char} (h : isBlankLine text = true) :
    isSampleLine text = true := by
  rw [isSampleLine, List.isEmpty_iff.mp h]
  rfl

theorem isBlankLine_eq_false_of_isHeader {line : Text.Line} (h : isHeader options line = true) :
    isBlankLine line.text = false := by
  by_contra hblank
  have hsamples := isSampleLine_of_isBlankLine (Bool.of_not_eq_false hblank)
  rw [isHeader_eq_false_of_isSampleLine hsamples] at h
  cases h

@[simp] theorem printed_cons_blank {line : Text.Line} (h : isBlankLine line.text = true)
    (lines : List Text.Line) : printed (line :: lines) = printed lines :=
  List.filter_cons_of_neg (by simp [h])

@[simp] theorem printed_cons {line : Text.Line} (h : isBlankLine line.text = false)
    (lines : List Text.Line) : printed (line :: lines) = line :: printed lines :=
  List.filter_cons_of_pos (by simp [h])

/-- The lines of a pair are lines of the stream that are not blank, the first can be a header
and the second holds samples. -/
theorem mem_pairs {lines : List Text.Line} {pair : Text.Line × Text.Line}
    (h : pair ∈ pairs options lines) :
    pair.1 ∈ printed lines ∧ pair.2 ∈ printed lines ∧ isHeader options pair.1 = true ∧
      isSampleLine pair.2.text = true := by
  obtain ⟨hzip, hfit⟩ := List.mem_filter.mp h
  rw [Bool.and_eq_true] at hfit
  obtain ⟨hheader, hsamples⟩ := List.of_mem_zip hzip
  exact ⟨hheader, List.mem_of_mem_tail hsamples, hfit.1, hfit.2⟩

/-! ### Pairs, line by line -/

section Pairs

variable {header line : Text.Line} {lines : List Text.Line}

theorem pairs_cons_blank (h : isBlankLine line.text = true) :
    pairs options (line :: lines) = pairs options lines := by
  rw [pairs, printed_cons_blank h]
  rfl

theorem pairs_cons_cons_blank (hheader : isHeader options header = true)
    (h : isBlankLine line.text = true) :
    pairs options (header :: line :: lines) = pairs options (header :: lines) := by
  have hprinted : printed (header :: line :: lines) = printed (header :: lines) := by
    rw [printed_cons (isBlankLine_eq_false_of_isHeader hheader),
      printed_cons (isBlankLine_eq_false_of_isHeader hheader), printed_cons_blank h]
  rw [pairs, hprinted]
  rfl

/-- A line that can be no header begins no pair. -/
theorem pairs_cons_of_not_isHeader (h : isHeader options line = false) :
    pairs options (line :: lines) = pairs options lines := by
  cases hblank : isBlankLine line.text with
  | true => exact pairs_cons_blank hblank
  | false =>
    rw [pairs, printed_cons hblank, List.tail_cons]
    cases hprinted : printed lines with
    | nil =>
      rw [pairs, hprinted]
      rfl
    | cons next rest =>
      rw [pairs, hprinted, List.zip_cons_cons, List.filter_cons_of_neg (by simp [h])]
      rfl

/-- The line behind a header decides whether the header begins a pair. -/
theorem pairs_header_cons (hheader : isHeader options header = true)
    (hblank : isBlankLine line.text = false) :
    pairs options (header :: line :: lines) =
      if isSampleLine line.text then (header, line) :: pairs options lines
      else pairs options (line :: lines) := by
  have hprinted : printed (header :: line :: lines) = header :: line :: printed lines := by
    rw [printed_cons (isBlankLine_eq_false_of_isHeader hheader), printed_cons hblank]
  have hrest : ((line :: printed lines).zip (printed lines)).filter (fun pair =>
      isHeader options pair.1 && isSampleLine pair.2.text) = pairs options (line :: lines) := by
    rw [pairs, printed_cons hblank]
    rfl
  rw [pairs, hprinted, List.tail_cons, List.zip_cons_cons, List.filter_cons, hrest, hheader,
    Bool.true_and]
  split
  · rename_i hsamples
    rw [pairs_cons_of_not_isHeader (isHeader_eq_false_of_isSampleLine hsamples)]
  · rfl

theorem pairs_singleton : pairs options [line] = [] := by
  cases hblank : isBlankLine line.text with
  | true => rw [pairs_cons_blank hblank]; rfl
  | false =>
    rw [pairs, printed_cons hblank]
    rfl

end Pairs

/-! ### Readings, line by line -/

section Readings

variable {header line : Text.Line}

theorem expectHeader_eq (readings : List Reading) (line : Text.Line) :
    expectHeader options readings line =
      if isHeader options line then ⟨readings, some line⟩ else ⟨.stray line :: readings, none⟩ := by
  rw [expectHeader, isHeader]
  cases options.limits.maxLineLength < line.length || isSampleLine line.text <;> rfl

theorem readFrom_cons_header (h : isHeader options line = true) (lines : List Text.Line) :
    readFrom options none (line :: lines) = readFrom options (some line) lines := by
  rw [readFrom, List.foldl_cons, feed,
    if_neg (by simp [isBlankLine_eq_false_of_isHeader h])]
  simp only [expectHeader_eq, h, if_true]
  rfl

theorem readFrom_cons_stray (hblank : isBlankLine line.text = false)
    (h : isHeader options line = false) (lines : List Text.Line) :
    readFrom options none (line :: lines) = .stray line :: readFrom options none lines := by
  have hfeed : feed options ⟨[], none⟩ line = behind ⟨[], none⟩ [.stray line] := by
    rw [feed, if_neg (by simp [hblank])]
    simp only [expectHeader_eq, h]
    rfl
  rw [readFrom, List.foldl_cons, hfeed, foldl_feed_behind, finish_behind]
  rfl

theorem readFrom_cons_samples (hblank : isBlankLine line.text = false)
    (h : isSampleLine line.text = true) (lines : List Text.Line) :
    readFrom options (some header) (line :: lines) =
      readPair header line :: readFrom options none lines := by
  have hfeed : feed options ⟨[], some header⟩ line = behind ⟨[], none⟩ [readPair header line] := by
    rw [feed, if_neg (by simp [hblank])]
    simp only [h, if_true]
    rfl
  rw [readFrom, List.foldl_cons, hfeed, foldl_feed_behind, finish_behind]
  rfl

/-- **The rules of reading.** What lines are read as, one line after the other, with or without
a header that waits for samples. -/
inductive ReadAs (options : ReadOptions) :
    Option Text.Line → List Text.Line → List Reading → Prop where
  /-- The lines are at their end. -/
  | done : ReadAs options none [] []
  /-- They are, and a header still waits. -/
  | left {header : Text.Line} (hheader : isHeader options header = true) :
    ReadAs options (some header) [] [.dangling header]
  /-- A blank line is passed over. -/
  | blank {header : Option Text.Line} {line : Text.Line} {lines : List Text.Line}
    {rs : List Reading} (hheader : ∀ h ∈ header, isHeader options h = true)
    (hblank : isBlankLine line.text = true) (rest : ReadAs options header lines rs) :
    ReadAs options header (line :: lines) (.blank :: rs)
  /-- A header is due and found. -/
  | expected {line : Text.Line} {lines : List Text.Line} {rs : List Reading}
    (hline : isHeader options line = true) (rest : ReadAs options (some line) lines rs) :
    ReadAs options none (line :: lines) rs
  /-- A header is due and something else is found. -/
  | stray {line : Text.Line} {lines : List Text.Line} {rs : List Reading}
    (hblank : isBlankLine line.text = false) (hline : isHeader options line = false)
    (rest : ReadAs options none lines rs) :
    ReadAs options none (line :: lines) (.stray line :: rs)
  /-- Samples are due and found. -/
  | samples {header line : Text.Line} {lines : List Text.Line} {rs : List Reading}
    (hheader : isHeader options header = true) (hblank : isBlankLine line.text = false)
    (hsamples : isSampleLine line.text = true) (rest : ReadAs options none lines rs) :
    ReadAs options (some header) (line :: lines) (readPair header line :: rs)
  /-- Samples are due and something else is found, which is looked at afresh. -/
  | dangling {header line : Text.Line} {lines : List Text.Line} {rs : List Reading}
    (hheader : isHeader options header = true) (hblank : isBlankLine line.text = false)
    (hsamples : isSampleLine line.text = false) (rest : ReadAs options none (line :: lines) rs) :
    ReadAs options (some header) (line :: lines) (.dangling header :: rs)

/-- **Lines are read by the rules.** -/
theorem readAs_readFrom (lines : List Text.Line) (header : Option Text.Line)
    (hheader : ∀ h ∈ header, isHeader options h = true) :
    ReadAs options header lines (readFrom options header lines) := by
  induction lines generalizing header with
  | nil =>
    cases header with
    | none => exact .done
    | some header => exact .left (hheader header rfl)
  | cons line lines ih =>
    cases hblank : isBlankLine line.text with
    | true =>
      rw [readFrom_cons_blank header hblank]
      exact .blank hheader hblank (ih header hheader)
    | false =>
      have hnone : ReadAs options none (line :: lines) (readFrom options none (line :: lines)) := by
        cases hline : isHeader options line with
        | true =>
          rw [readFrom_cons_header hline]
          exact .expected hline (ih (some line) (by simpa using hline))
        | false =>
          rw [readFrom_cons_stray hblank hline]
          exact .stray hblank hline (ih none (by simp))
      cases header with
      | none => exact hnone
      | some header =>
        cases hsamples : isSampleLine line.text with
        | true =>
          rw [readFrom_cons_samples hblank hsamples]
          exact .samples (hheader header rfl) hblank hsamples (ih none (by simp))
        | false =>
          rw [readFrom_some_cons header hblank hsamples]
          exact .dangling (hheader header rfl) hblank hsamples hnone

theorem readAs_readings (lines : List Text.Line) :
    ReadAs options none lines (readings options lines) :=
  readAs_readFrom lines none (by simp)

end Readings

/-! ### What is read -/

namespace Reading

/-- Whether a reading is that of a blank line. -/
def isBlank : Reading → Bool
  | blank => true
  | _ => false

/-- Whether a reading is that of a line that is not blank and belongs to no pair. -/
def isAlone : Reading → Bool
  | stray _ => true
  | dangling _ => true
  | _ => false

/-- Whether a reading is that of a header with its samples. -/
def isPair : Reading → Bool
  | miscounted _ _ => true
  | faulty _ _ => true
  | block _ => true
  | _ => false

end Reading

/-- A pair is read as one. -/
theorem readPair_kind (header samples : Text.Line) :
    (readPair header samples).isPair = true ∧ (readPair header samples).isBlank = false ∧
      (readPair header samples).isAlone = false := by
  rw [readPair]
  split
  · exact ⟨rfl, rfl, rfl⟩
  · split <;> exact ⟨rfl, rfl, rfl⟩
  · exact ⟨rfl, rfl, rfl⟩

/-- The reading of a pair. -/
def readingOf (pair : Text.Line × Text.Line) : Reading := readPair pair.1 pair.2

/-- **Pairs are read in their order**, and nothing else is read as one. -/
theorem ReadAs.filter_isPair {header : Option Text.Line} {lines : List Text.Line}
    {rs : List Reading} (h : ReadAs options header lines rs) :
    rs.filter Reading.isPair = (pairs options (header.toList ++ lines)).map readingOf := by
  induction h with
  | done => rfl
  | left hheader =>
    rw [Option.toList_some, List.append_nil, pairs_singleton]
    rfl
  | @blank header line lines rs hheader hblank _ ih =>
    have hpairs : pairs options (header.toList ++ line :: lines) =
        pairs options (header.toList ++ lines) := by
      cases header with
      | none => exact pairs_cons_blank hblank
      | some header => exact pairs_cons_cons_blank (hheader header rfl) hblank
    rw [hpairs, ← ih]
    rfl
  | expected hline _ ih => exact ih
  | stray hblank hline _ ih =>
    rw [Option.toList_none, List.nil_append, pairs_cons_of_not_isHeader hline]
    exact ih
  | samples hheader hblank hsamples _ ih =>
    rw [Option.toList_some, List.singleton_append, pairs_header_cons hheader hblank,
      if_pos hsamples, List.filter_cons_of_pos (readPair_kind _ _).1, ih]
    rfl
  | dangling hheader hblank hsamples _ ih =>
    rw [Option.toList_some, List.singleton_append, pairs_header_cons hheader hblank,
      if_neg (by simp [hsamples])]
    exact ih

theorem filter_isPair_readings (lines : List Text.Line) :
    (readings options lines).filter Reading.isPair = (pairs options lines).map readingOf :=
  (readAs_readings lines).filter_isPair

/-- What is left out of a list is not missed where nothing comes of it. -/
theorem flatMap_filter_eq {α β : Type} {p : α → Bool} {f : α → List β} {l : List α}
    (h : ∀ a ∈ l, p a = false → f a = []) : (l.filter p).flatMap f = l.flatMap f := by
  induction l with
  | nil => rfl
  | cons a l ih =>
    obtain ⟨ha, hl⟩ := List.forall_mem_cons.mp h
    cases hp : p a with
    | true => rw [List.filter_cons_of_pos hp, List.flatMap_cons, List.flatMap_cons, ih hl]
    | false =>
      rw [List.filter_cons_of_neg (by simp [hp]), List.flatMap_cons, ha hp, ih hl,
        List.nil_append]

/-- **The measurements of a report are those of its pairs.** -/
theorem measurements_ofLines (name : String) (lines : List Text.Line) :
    (ofLines options name lines).measurements =
      (pairs options lines).flatMap fun pair => (readingOf pair).measurements name := by
  have hnone : ∀ r ∈ readings options lines, r.isPair = false → r.measurements name = [] := by
    intro r _ hr
    cases r <;> first | rfl | cases hr
  rw [ofLines, ← flatMap_filter_eq hnone, filter_isPair_readings, List.flatMap_map]

/-! ### What is counted -/

/-- Readings are counted by their kinds. -/
theorem sum_tally (rs : List Reading) :
    (rs.map Reading.tally).sum =
      rs.countP Reading.isBlank • Tally.unmatchedLine +
        rs.countP Reading.isAlone • Tally.damagedLine +
        ((rs.filter Reading.isPair).map Reading.tally).sum := by
  induction rs with
  | nil => rfl
  | cons r rs ih =>
    rw [List.map_cons, List.sum_cons, ih]
    cases r with
    | blank =>
      change Tally.unmatchedLine + _ = _
      simp only [List.countP_cons, List.filter_cons, Reading.isBlank, Reading.isAlone,
        Reading.isPair, if_true, Bool.false_eq_true, if_false, add_zero, succ_nsmul]
      abel
    | stray | dangling =>
      change Tally.damagedLine + _ = _
      simp only [List.countP_cons, List.filter_cons, Reading.isBlank, Reading.isAlone,
        Reading.isPair, if_true, Bool.false_eq_true, if_false, add_zero, succ_nsmul]
      abel
    | miscounted | faulty | block =>
      simp only [List.countP_cons, List.filter_cons, Reading.isBlank, Reading.isAlone,
        Reading.isPair, if_true, Bool.false_eq_true, if_false, add_zero, List.map_cons,
        List.sum_cons]
      abel

section Count

variable {header : Option Text.Line} {lines : List Text.Line} {rs : List Reading}

theorem ReadAs.countP_isBlank (h : ReadAs options header lines rs) :
    rs.countP Reading.isBlank = lines.countP fun line => isBlankLine line.text := by
  induction h with
  | done => rfl
  | left => rfl
  | blank _ hblank _ ih => simp [List.countP_cons, Reading.isBlank, hblank, ih]
  | expected hline _ ih => simp [isBlankLine_eq_false_of_isHeader hline, ih]
  | stray hblank _ _ ih => simp [Reading.isBlank, hblank, ih]
  | samples _ hblank _ _ ih => simp [hblank, readPair_kind, ih]
  | dangling _ hblank _ _ ih => simp [List.countP_cons, Reading.isBlank, ih]

/-- **Every line that is not blank stands in a pair or alone.** -/
theorem ReadAs.length_printed (h : ReadAs options header lines rs) :
    (printed (header.toList ++ lines)).length =
      rs.countP Reading.isAlone + 2 * rs.countP Reading.isPair := by
  induction h with
  | done => rfl
  | left hheader => simp [isBlankLine_eq_false_of_isHeader hheader, printed, Reading.isAlone,
      Reading.isPair]
  | @blank header line lines rs _ hblank _ ih =>
    have hprinted : printed (header.toList ++ line :: lines) =
        printed (header.toList ++ lines) := by
      simp [printed, hblank]
    rw [hprinted, ih]
    rfl
  | expected _ _ ih => exact ih
  | stray hblank _ _ ih =>
    rw [Option.toList_none, List.nil_append] at ih ⊢
    simp only [printed_cons hblank, List.length_cons, ih, List.countP_cons, Reading.isAlone,
      Reading.isPair]
    simp only [if_true, Bool.false_eq_true, if_false]
    omega
  | samples hheader hblank _ _ ih =>
    rw [Option.toList_none, List.nil_append] at ih
    rw [Option.toList_some, List.singleton_append,
      printed_cons (isBlankLine_eq_false_of_isHeader hheader), printed_cons hblank]
    simp only [List.length_cons, ih, List.countP_cons, readPair_kind]
    simp only [if_true, Bool.false_eq_true, if_false]
    omega
  | dangling hheader _ _ _ ih =>
    rw [Option.toList_none, List.nil_append] at ih
    rw [Option.toList_some, List.singleton_append,
      printed_cons (isBlankLine_eq_false_of_isHeader hheader)]
    simp only [List.length_cons, ih, List.countP_cons, Reading.isAlone, Reading.isPair]
    simp only [if_true, Bool.false_eq_true, if_false]
    omega

end Count

/-- **Every line is counted once**: a blank line as one without a form, the two lines of a pair
with it, and every other line as damaged. -/
theorem exists_tally_ofLines (name : String) (lines : List Text.Line) :
    ∃ alone, (printed lines).length = alone + 2 * (pairs options lines).length ∧
      (ofLines options name lines).tally =
        (lines.countP fun line => isBlankLine line.text) • Tally.unmatchedLine +
          alone • Tally.damagedLine +
          ((pairs options lines).map fun p => (readingOf p).tally).sum := by
  have hread := @readAs_readings options lines
  refine ⟨(readings options lines).countP Reading.isAlone, ?_, ?_⟩
  · rw [← List.length_map readingOf, ← filter_isPair_readings, ← List.countP_eq_length_filter]
    exact hread.length_printed
  · rw [ofLines, Tally.sum_eq, sum_tally, hread.countP_isBlank, filter_isPair_readings,
      List.map_map]
    rfl

/-! ### The header that waits -/

/-- Two neighbours of a list cut it. -/
theorem exists_append_of_mem_zip_tail {α : Type} {l : List α} {x y : α}
    (h : (x, y) ∈ l.zip l.tail) : ∃ u v, l = u ++ x :: y :: v := by
  induction l with
  | nil => simp at h
  | cons a l ih =>
    cases l with
    | nil => simp at h
    | cons b l =>
      rw [List.tail_cons, List.zip_cons_cons] at h
      rcases List.mem_cons.mp h with heq | h
      · obtain ⟨rfl, rfl⟩ := Prod.mk.inj heq
        exact ⟨[], l, rfl⟩
      · obtain ⟨u, v, huv⟩ := ih h
        exact ⟨a :: u, v, by rw [huv, List.cons_append]⟩

/-- **The samples of a pair stand where its header waits for them.** -/
theorem exists_waiting_of_mem_pairs {lines : List Text.Line} {pair : Text.Line × Text.Line}
    (h : pair ∈ pairs options lines) :
    ∃ a b, lines = a ++ pair.2 :: b ∧ waiting options a = some pair.1 := by
  obtain ⟨u, v, huv⟩ := exists_append_of_mem_zip_tail (List.mem_filter.mp h).1
  rw [← List.singleton_append, ← List.append_assoc, printed, List.filter_eq_append_iff] at huv
  obtain ⟨a, c, rfl, ha, hc⟩ := huv
  obtain ⟨blanks, b, rfl, hblanks, -, -⟩ := List.filter_eq_cons_iff.mp hc
  refine ⟨a ++ blanks, b, (List.append_assoc ..).symm, ?_⟩
  -- the last line in front of the samples that is not blank is the header
  have hprinted : printed (a ++ blanks) = u ++ [pair.1] := by
    rw [printed, List.filter_append, ha, List.filter_eq_nil_iff.mpr hblanks, List.append_nil]
  rw [waiting, hprinted, List.getLast?_concat, Option.filter_some, (mem_pairs h).2.2.1]
  rfl

/-- **The header that waits behind some lines is the last of them that is not blank**, if it
can be a header. -/
theorem header_foldl_feed (lines : List Text.Line) :
    (lines.foldl (feed options) start).header = waiting options lines := by
  induction lines using List.reverseRecOn with
  | nil => rfl
  | append_singleton lines line ih =>
    rw [List.foldl_concat, feed]
    have hprinted : printed (lines ++ [line]) = printed lines ++ printed [line] :=
      List.filter_append ..
    cases hblank : isBlankLine line.text with
    | true =>
      rw [if_pos rfl, waiting, hprinted, printed_cons_blank hblank]
      exact ih.trans (by simp [waiting, printed])
    | false =>
      rw [if_neg (by simp), waiting, hprinted, printed_cons hblank, List.getLast?_append]
      simp only [expectHeader_eq]
      cases hheader : isHeader options line with
      | true =>
        have hsamples : isSampleLine line.text = false := by
          simp only [isHeader, Bool.not_eq_true', Bool.or_eq_false_iff] at hheader
          exact hheader.2
        cases (lines.foldl (feed options) start).header <;>
          simp [printed, hheader, hsamples, Option.filter]
      | false =>
        cases (lines.foldl (feed options) start).header with
        | none => simp [printed, hheader, Option.filter]
        | some h => cases isSampleLine line.text <;> simp [printed, hheader, Option.filter]

end BenchReport.Paired
