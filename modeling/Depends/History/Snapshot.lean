import Depends.History.Ledger
import Depends.Text.Quoted
import Depends.Failure
import Depends.Time.Duration
import Depends.Time.Stamp

/-!
The summary of one analysis run, what is filled in before it is saved, and its row in a database.
-/
namespace Depends

/-- The summary of a run. The duration is in nanoseconds. -/
structure Snapshot where
  runId : String := ""
  projectKey : String := ""
  schemaVersion : Int := 0
  stamp : Stamp := Stamp.zero
  counts : RunCounts := {}
  duration : Int := 0
  deriving DecidableEq, Repr

/-- What is new with each run: the present time, an identifier that was never used, and the nanoseconds
that the run takes. -/
structure Occasion where
  now : Stamp
  runId : String
  elapsed : Int := 0
  deriving DecidableEq, Repr

/-- A project key without blanks around it; an empty one names the default project. -/
def projectName (key : String) : String :=
  let key := Text.trim key
  if key == "" then "default" else key

namespace Snapshot

/-- The snapshot with what was left out: a run identifier, the project, the time and the version. The
time is told without offset. -/
def completed (s : Snapshot) (occasion : Occasion) : Snapshot :=
  { s with
    runId := if s.runId == "" then occasion.runId else s.runId
    projectKey := projectName s.projectKey
    stamp := (if s.stamp.isZero then occasion.now else s.stamp).utc
    schemaVersion := if s.schemaVersion = 0 then Ledger.supported else s.schemaVersion }

/-- The row of a snapshot. The duration is cut to whole milliseconds. -/
def row (s : Snapshot) : HistoryRow :=
  { runId := s.runId
    projectKey := s.projectKey
    schemaVersion := s.schemaVersion
    stamp := s.stamp.text
    counts := s.counts
    milliseconds := s.duration.tdiv Duration.millisecond }

/-- The snapshot of a row, unless the text of its time stamp cannot be read. -/
def ofRow (row : HistoryRow) : Except Failure Snapshot :=
  match Stamp.ofText? row.stamp with
  | none => .error (.plain ("parse snapshot timestamp " ++ Text.quoted row.stamp))
  | some stamp =>
    .ok
      { runId := row.runId
        projectKey := row.projectKey
        schemaVersion := row.schemaVersion
        stamp := stamp.utc
        counts := row.counts
        duration := row.milliseconds * Duration.millisecond }

end Snapshot

end Depends
