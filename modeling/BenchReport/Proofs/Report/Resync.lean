import Mathlib
import BenchReport.Proofs.Report.Tally
import BenchReport.Proofs.Text.Line
import BenchReport.Report.Paired

/-!
# A paired-line reader falls into step

Whatever stands in front of a paired-line report, the reader has one thing left of it
at most: a header that waits for its samples. Three facts about
`BenchReport.Paired.Progress.feed` make this precise.

* It never looks back: what has been read stays as it is, and has no say in what is read
  next (`BenchReport.Paired.Progress.foldl_feed_behind`).
* It never looks at numbers: lines that are numbered anew are read as before
  (`BenchReport.Paired.readings_map_later`).
* A waiting header in front of lines that do not begin with samples is given up, behind
  the blank lines if there are any, and changes nothing else
  (`BenchReport.Paired.exists_readings_of_waiting`).

So reading two streams one after the other is reading each of them
(`BenchReport.Paired.ofStream_append`). The samples at the head of the second stream
are the one thing that must be excluded: they would be taken for those of a header at
the end of the first.
-/

namespace BenchReport.Paired

variable {options : ReadOptions}

/-! ### Looking back -/

namespace Progress

/-- Progress with more readings behind it. -/
def behind (p : Progress) (earlier : List Reading) : Progress :=
  { p with readings := p.readings ++ earlier }

theorem expectHeader_behind (readings earlier : List Reading) (line : Text.Line) :
    expectHeader options (readings ++ earlier) line =
      (expectHeader options readings line).behind earlier := by
  rw [expectHeader, expectHeader]
  split <;> rfl

/-- **A line is read without a look at what was read before.** -/
theorem feed_behind (p : Progress) (earlier : List Reading) (line : Text.Line) :
    (p.behind earlier).feed options line = (p.feed options line).behind earlier := by
  obtain ⟨readings, header⟩ := p
  rw [feed, feed, behind]
  split
  · rfl
  · cases header with
    | none => exact expectHeader_behind readings earlier line
    | some header =>
      simp only
      split
      · rfl
      · exact expectHeader_behind (.dangling header :: readings) earlier line

/-- **No line is read with a look at what was read before.** -/
theorem foldl_feed_behind (lines : List Text.Line) (p : Progress) (earlier : List Reading) :
    lines.foldl (feed options) (p.behind earlier) =
      (lines.foldl (feed options) p).behind earlier := by
  induction lines generalizing p with
  | nil => rfl
  | cons line lines ih => rw [List.foldl_cons, List.foldl_cons, feed_behind, ih]

theorem finish_behind (p : Progress) (earlier : List Reading) :
    (p.behind earlier).finish = earlier.reverse ++ p.finish := by
  obtain ⟨readings, header⟩ := p
  cases header <;> simp [finish, behind]

end Progress

open Progress

/-! ### A header that waits -/

/-- What lines are read as behind a header that may wait. -/
def readFrom (options : ReadOptions) (header : Option Text.Line) (lines : List Text.Line) :
    List Reading :=
  (lines.foldl (feed options) ⟨[], header⟩).finish

/-- **Two lists of lines meet in the header that waits between them.** -/
theorem readings_append (a b : List Text.Line) :
    readings options (a ++ b) =
      (a.foldl (feed options) start).readings.reverse ++
        readFrom options (a.foldl (feed options) start).header b := by
  have hsplit : a.foldl (feed options) start =
      behind ⟨[], (a.foldl (feed options) start).header⟩
        (a.foldl (feed options) start).readings := rfl
  rw [readings, List.foldl_append, hsplit, foldl_feed_behind, finish_behind]
  rfl

/-- A blank line is read as such, whether or not a header waits. -/
theorem readFrom_cons_blank (header : Option Text.Line) {line : Text.Line}
    (h : isBlankLine line.text = true) (lines : List Text.Line) :
    readFrom options header (line :: lines) = .blank :: readFrom options header lines := by
  have hfeed : feed options ⟨[], header⟩ line = behind ⟨[], header⟩ [.blank] := by
    rw [feed, if_pos h]
    rfl
  rw [readFrom, List.foldl_cons, hfeed, foldl_feed_behind, finish_behind]
  rfl

/-- A waiting header is given up at a line that is neither blank nor samples, which is
then looked at as if no header had waited. -/
theorem readFrom_some_cons (header : Text.Line) {line : Text.Line}
    (hblank : isBlankLine line.text = false) (hsample : isSampleLine line.text = false)
    (lines : List Text.Line) :
    readFrom options (some header) (line :: lines) =
      .dangling header :: readFrom options none (line :: lines) := by
  have hfeed : feed options ⟨[], some header⟩ line =
      (feed options ⟨[], none⟩ line).behind [.dangling header] := by
    simp only [feed, hblank, hsample]
    exact expectHeader_behind [] [.dangling header] line
  rw [readFrom, List.foldl_cons, hfeed, foldl_feed_behind, finish_behind]
  rfl

/-- Lines of which the first that is not blank, if there is one, holds no samples. -/
def BeginsAfresh (lines : List Text.Line) : Prop :=
  ∀ line, (lines.find? fun l => !isBlankLine l.text) = some line → isSampleLine line.text = false

instance (lines : List Text.Line) : Decidable (BeginsAfresh lines) :=
  decidable_of_iff
    ((lines.find? fun l => !isBlankLine l.text).all (fun l => !isSampleLine l.text) = true)
    (by simp only [BeginsAfresh, Option.all_eq_true, Bool.not_eq_true'])

/-- **A waiting header in front of lines that do not begin with samples** is given up
behind their first blank lines, and nothing else is changed. -/
theorem exists_readings_of_waiting (header : Text.Line) {lines : List Text.Line}
    (h : BeginsAfresh lines) :
    ∃ blanks rest, readings options lines = List.replicate blanks .blank ++ rest ∧
      readFrom options (some header) lines =
        List.replicate blanks .blank ++ .dangling header :: rest := by
  induction lines with
  | nil => exact ⟨0, [], rfl, rfl⟩
  | cons line lines ih =>
    cases hblank : isBlankLine line.text with
    | true =>
      obtain ⟨blanks, rest, hreadings, hwaiting⟩ := ih fun l hl => h l (by simp [hblank, hl])
      refine ⟨blanks + 1, rest, ?_, ?_⟩
      · have hread : readings options (line :: lines) = .blank :: readings options lines :=
          readFrom_cons_blank none hblank lines
        rw [hread, hreadings, List.replicate_succ, List.cons_append]
      · rw [readFrom_cons_blank _ hblank, hwaiting, List.replicate_succ, List.cons_append]
    | false =>
      have hsample : isSampleLine line.text = false := h line (by simp [hblank])
      exact ⟨0, readings options (line :: lines), rfl,
        readFrom_some_cons header hblank hsample lines⟩

/-- **What two streams of lines are read as.** All that the first leaves to the second is
a header without samples, which is found behind the first blank lines of the second. -/
theorem exists_readings_append (a : List Text.Line) {b : List Text.Line} (h : BeginsAfresh b) :
    ∃ before left blanks rest, (∀ r ∈ left, ∃ header, r = .dangling header) ∧
      readings options a = before ++ left ∧
      readings options b = List.replicate blanks .blank ++ rest ∧
      readings options (a ++ b) = before ++ (List.replicate blanks .blank ++ (left ++ rest)) := by
  rw [readings_append]
  cases hheader : (a.foldl (feed options) start).header with
  | none =>
    refine ⟨_, [], 0, readings options b, by simp, ?_, rfl, rfl⟩
    simp [readings, finish, hheader]
  | some header =>
    obtain ⟨blanks, rest, hreadings, hwaiting⟩ := exists_readings_of_waiting header h
    refine ⟨_, [.dangling header], blanks, rest, by simp, ?_, hreadings, by rw [hwaiting]; rfl⟩
    simp [readings, finish, hheader]

/-! ### Numbers -/

/-- A reading with the lines that it names changed. -/
def Reading.map (f : Text.Line → Text.Line) : Reading → Reading
  | .blank => .blank
  | .stray line => .stray (f line)
  | .dangling header => .dangling (f header)
  | .miscounted header found => .miscounted (f header) found
  | .faulty line fault => .faulty (f line) fault
  | .block b => .block b

theorem Reading.tally_map (f : Text.Line → Text.Line) (r : Reading) :
    (r.map f).tally = r.tally := by
  cases r <;> rfl

theorem Reading.measurements_map (f : Text.Line → Text.Line) (name : String) (r : Reading) :
    (r.map f).measurements name = r.measurements name := by
  cases r <;> rfl

/-- A header and samples are read by their texts. -/
theorem readPair_later (n : Nat) (header samples : Text.Line) :
    readPair (header.later n) (samples.later n) =
      (readPair header samples).map (Text.Line.later n) := by
  rw [readPair, readPair]
  simp only [Text.Line.later]
  split
  · rfl
  · split <;> rfl
  · rfl

/-- Progress with the lines that it names changed. -/
def Progress.map (f : Text.Line → Text.Line) (p : Progress) : Progress :=
  ⟨p.readings.map (Reading.map f), p.header.map f⟩

theorem expectHeader_later (n : Nat) (readings : List Reading) (line : Text.Line) :
    expectHeader options (readings.map (Reading.map (Text.Line.later n))) (line.later n) =
      (expectHeader options readings line).map (Text.Line.later n) := by
  have hlength : (line.later n).length = line.length := rfl
  have htext : (line.later n).text = line.text := rfl
  rw [expectHeader, expectHeader, hlength, htext]
  split <;> rfl

/-- **A line is read without a look at its number.** -/
theorem feed_later (n : Nat) (p : Progress) (line : Text.Line) :
    (p.map (Text.Line.later n)).feed options (line.later n) =
      (p.feed options line).map (Text.Line.later n) := by
  obtain ⟨readings, header⟩ := p
  have htext : (line.later n).text = line.text := rfl
  rw [feed, feed, htext]
  split
  · rfl
  · cases header with
    | none => exact expectHeader_later n readings line
    | some header =>
      simp only [Progress.map, Option.map_some]
      split
      · rw [readPair_later]
        rfl
      · exact expectHeader_later n (.dangling header :: readings) line

/-- **No line is read with a look at a number.** -/
theorem foldl_feed_later (n : Nat) (lines : List Text.Line) (p : Progress) :
    (lines.map (Text.Line.later n)).foldl (feed options) (p.map (Text.Line.later n)) =
      (lines.foldl (feed options) p).map (Text.Line.later n) := by
  induction lines generalizing p with
  | nil => rfl
  | cons line lines ih => rw [List.map_cons, List.foldl_cons, feed_later, ih, List.foldl_cons]

theorem finish_map (f : Text.Line → Text.Line) (p : Progress) :
    (p.map f).finish = p.finish.map (Reading.map f) := by
  obtain ⟨readings, header⟩ := p
  cases header <;> simp [finish, Progress.map, Reading.map]

/-- **Lines that are numbered anew are read as before.** -/
theorem readings_map_later (n : Nat) (lines : List Text.Line) :
    readings options (lines.map (Text.Line.later n)) =
      (readings options lines).map (Reading.map (Text.Line.later n)) := by
  rw [readings, readings, ← finish_map, ← foldl_feed_later]
  rfl

theorem BeginsAfresh.later {lines : List Text.Line} (h : BeginsAfresh lines) (n : Nat) :
    BeginsAfresh (lines.map (Text.Line.later n)) := by
  intro line hline
  rw [List.find?_map] at hline
  obtain ⟨first, hfirst, rfl⟩ := Option.map_eq_some_iff.mp hline
  exact h first hfirst

/-! ### Reports -/

variable {name : String}

/-- Lines that are numbered anew give the same report. -/
theorem ofLines_map_later (n : Nat) (lines : List Text.Line) :
    ofLines options name (lines.map (Text.Line.later n)) = ofLines options name lines := by
  simp only [ofLines, readings_map_later, List.flatMap_map, List.map_map, Function.comp_def,
    Reading.measurements_map, Reading.tally_map]

/-- **The report of two lists of lines is their reports put together.** -/
theorem ofLines_append (a : List Text.Line) {b : List Text.Line} (h : BeginsAfresh b) :
    ofLines options name (a ++ b) = ofLines options name a ++ ofLines options name b := by
  obtain ⟨before, left, blanks, rest, hleft, ha, hb, hab⟩ :=
    @exists_readings_append options a b h
  -- what is found between the two streams gives no measurement
  have hnone : left.flatMap (Reading.measurements name) = [] := by
    refine List.flatMap_eq_nil_iff.mpr fun r hr => ?_
    obtain ⟨header, rfl⟩ := hleft r hr
    rfl
  have hblank : (List.replicate blanks Reading.blank).flatMap (Reading.measurements name) = [] :=
    List.flatMap_eq_nil_iff.mpr fun r hr => by rw [List.eq_of_mem_replicate hr]; rfl
  have hmeasurements : (readings options (a ++ b)).flatMap (Reading.measurements name) =
      (readings options a).flatMap (Reading.measurements name) ++
        (readings options b).flatMap (Reading.measurements name) := by
    rw [hab, ha, hb]
    simp only [List.flatMap_append, hnone, hblank, List.nil_append, List.append_nil]
  have htally : Tally.sum ((readings options (a ++ b)).map Reading.tally) =
      Tally.sum ((readings options a).map Reading.tally) +
        Tally.sum ((readings options b).map Reading.tally) := by
    rw [hab, ha, hb]
    simp only [Tally.sum_eq, List.map_append, List.sum_append]
    rw [add_add_add_comm, add_assoc, add_left_comm]
  rw [ofLines, hmeasurements, htally]
  rfl

/-- **A stream read behind another is read as by itself.** Let the first end in a newline,
and let the first line of the second that is not blank hold no samples. Then the report
of both is the report of the first and the report of the second, put together. -/
theorem ofStream_append (options : ReadOptions) (name : String) {a b : List UInt8}
    (ha : a = [] ∨ a.getLast? = some Text.newline) (hb : BeginsAfresh (Text.lines b)) :
    ∃ ra rb, ofStream options name (.ofBytes a) = .ok ra ∧
      ofStream options name (.ofBytes b) = .ok rb ∧
      ofStream options name (.ofBytes (a ++ b)) = .ok (ra ++ rb) := by
  refine ⟨_, _, rfl, rfl, ?_⟩
  have hlines : (Text.Stream.ofBytes (a ++ b)).lines =
      Text.lines a ++ (Text.lines b).map (Text.Line.later (Text.lineBytes a).length) :=
    Text.lines_append ha b
  rw [ofStream, hlines, ofLines_append _ (hb.later _), ofLines_map_later]
  rfl

/-- A stream that ends in a header without samples, and a block behind a blank line. -/
theorem header_ofStream_append_block :
    let a := Text.encode "7\n[1 2]\nClients: 1, MergeRate: -2, StreamRate: 3\n"
    let b := Text.encode "\nClients: 4, MergeRate: 5, StreamRate: 6\r\n[1000000 3000000]"
    a.getLast? = some Text.newline ∧ BeginsAfresh (Text.lines b) ∧
      ∃ ra rb, ofStream ⟨.default, none⟩ "Latency" (.ofBytes a) = .ok ra ∧
        ofStream ⟨.default, none⟩ "Latency" (.ofBytes b) = .ok rb ∧
        ofStream ⟨.default, none⟩ "Latency" (.ofBytes (a ++ b)) = .ok (ra ++ rb) := by
  intro a b
  have ha : a.getLast? = some Text.newline := by decide +kernel
  have hb : BeginsAfresh (Text.lines b) := by decide +kernel
  exact ⟨ha, hb, ofStream_append ⟨.default, none⟩ "Latency" (.inr ha) hb⟩

end BenchReport.Paired
