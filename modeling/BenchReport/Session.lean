import BenchReport.Rate
import BenchReport.Report.Basic

/-!
# Sessions

Instead of running the whole chain at once, one can go step by step: read a report, and
another one, group what there is, derive rates with one setting and then with a second.
A **session** is what has been gathered on the way.

What is read is put behind what was read before, so that the reports of a session are
one report (`BenchReport.Report.append`). Groups, and the rates derived from them, stand
beside it and change only when a step asks for it. Groups can be put aside, to be taken
up with others later: then they are averaged once more, each as one observation.
-/

namespace BenchReport

/-- What has been gathered step by step. -/
structure Session where
  /-- What has been read so far. -/
  report : Report
  /-- The groups made last. -/
  groups : List Group
  /-- The groups put aside. -/
  stash : List Group
  /-- The rates derived last. -/
  rates : List DerivedRates

namespace Session

/-- Nothing gathered yet. -/
def empty : Session := ⟨Report.empty, [], [], []⟩

/-- The measurements gathered so far. -/
def measurements (s : Session) : List Measurement := s.report.measurements

/-- Reads one more report. -/
def read (report : Report) (s : Session) : Session := { s with report := s.report ++ report }

/-- Adds a measurement that belongs to no report. -/
def push (m : Measurement) (s : Session) : Session :=
  { s with report := { s.report with measurements := s.report.measurements ++ [m] } }

/-- Forgets the measurements, and nothing else. -/
def clear (s : Session) : Session := { s with report := { s.report with measurements := [] } }

/-- Groups the measurements. -/
def aggregate (s : Session) : Session := { s with groups := Group.aggregate s.measurements }

/-- Averages the groups once more. -/
def reaggregate (s : Session) : Session := { s with groups := Group.aggregate s.groups }

/-- Puts the groups aside, behind those put aside before. -/
def putAside (s : Session) : Session := { s with groups := [], stash := s.stash ++ s.groups }

/-- Takes up all the groups put aside, averaged once more. -/
def takeUp (s : Session) : Session := { s with groups := Group.aggregate s.stash, stash := [] }

/-- Derives rates from the groups. -/
def derive (config : RateConfig) (s : Session) :
    Except MissingLatency (RateTable × Session) :=
  match Rate.deriveAll config s.groups with
  | .error fault => .error fault
  | .ok table => .ok (table, { s with rates := table.derived })

end Session

end BenchReport
