/-!
What a history database keeps: one row per run, and the schema versions that were applied to it. Rows
are found by project and time; times are compared as the texts that they are.
-/
namespace Depends

/-- The counts of one analysis run. -/
structure RunCounts where
  files : Int := 0
  failures : Int := 0
  types : Int := 0
  edges : Int := 0
  components : Int := 0
  cyclic : Int := 0
  maxFanIn : Int := 0
  maxFanOut : Int := 0
  deriving DecidableEq, Repr

/-- A stored run. The time stamp is kept as text and the duration in whole milliseconds. -/
structure HistoryRow where
  runId : String
  projectKey : String
  schemaVersion : Int
  stamp : String
  counts : RunCounts
  milliseconds : Int
  deriving DecidableEq, Repr

/-- The rows of a database and the schema versions recorded in it. -/
structure Ledger where
  rows : List HistoryRow := []
  versions : List Int := []
  deriving DecidableEq, Repr

namespace HistoryRow

/-- Takes over the counts and the duration of another row of the same run. -/
def refreshed (old new : HistoryRow) : HistoryRow :=
  { old with counts := new.counts, milliseconds := new.milliseconds }

/-- The order of rows: by the text of the time stamp, then by run. -/
def before (a b : HistoryRow) : Bool :=
  a.stamp < b.stamp || (a.stamp == b.stamp && a.runId ≤ b.runId)

end HistoryRow

namespace Ledger

/-- The schema version that this library writes. -/
def supported : Int := 1

/-- The newest version recorded; a database without any has version zero. -/
def version (ledger : Ledger) : Int := ledger.versions.foldl max 0

/-- The database with the supported schema, or its own version when that is newer. -/
def upgrade (ledger : Ledger) : Except Int Ledger :=
  if supported < ledger.version then .error ledger.version
  else if ledger.version < supported then
    .ok { ledger with versions := ledger.versions ++ [supported] }
  else .ok ledger

/-- Stores a row. A run that is already there gets new counts and a new duration and keeps the rest. -/
def put (ledger : Ledger) (row : HistoryRow) : Ledger :=
  if ledger.rows.any (·.runId == row.runId) then
    { ledger with
      rows := ledger.rows.map fun old => if old.runId == row.runId then old.refreshed row else old }
  else { ledger with rows := ledger.rows ++ [row] }

/-- The rows of a project in order, from a time text on if one is given. -/
def select (ledger : Ledger) (projectKey : String) (since : Option String) : List HistoryRow :=
  (ledger.rows.filter fun row =>
    row.projectKey == projectKey && since.all fun start => start ≤ row.stamp).mergeSort HistoryRow.before

end Ledger

end Depends
