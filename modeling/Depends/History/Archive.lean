import Depends.History.Ledger

/-!
The text form of a history database: a heading, then texts that each follow their length, so that they
may hold any character.
-/
namespace Depends.Ledger

/-- The heading of the text form. -/
def heading : String := "depscan history\n"

/-- A text after its length. -/
def measured (text : String) : String := toString text.length ++ ":" ++ text

/-- Reads measured texts up to the end. -/
def texts? : Nat → List Char → Option (List String)
  | _, [] => some []
  | 0, _ :: _ => none
  | fuel + 1, c :: cs =>
    let digits := (c :: cs).takeWhile Char.isDigit
    match (c :: cs).drop digits.length with
    | ':' :: rest => do
      let size ← (String.ofList digits).toNat?
      if rest.length < size then none
      let more ← texts? fuel (rest.drop size)
      return String.ofList (rest.take size) :: more
    | _ => none

/-- The texts of a row. -/
def rowTexts (row : HistoryRow) : List String :=
  let c := row.counts
  [row.runId, row.projectKey, row.stamp] ++
    ([row.schemaVersion, row.milliseconds, c.files, c.failures, c.types, c.edges, c.components, c.cyclic,
      c.maxFanIn, c.maxFanOut] : List Int).map toString

/-- A row from its numbers. -/
def rowOf? (runId projectKey stamp : String) : List Int → Option HistoryRow
  | [schemaVersion, milliseconds, files, failures, types, edges, components, cyclic, maxFanIn, maxFanOut] =>
    some
      { runId, projectKey, schemaVersion, stamp, milliseconds
        counts := { files, failures, types, edges, components, cyclic, maxFanIn, maxFanOut } }
  | _ => none

/-- Reads rows of thirteen texts each. -/
def rows? : Nat → List String → Option (List HistoryRow)
  | _, [] => some []
  | fuel + 1, runId :: projectKey :: stamp :: rest => do
    let row ← rowOf? runId projectKey stamp (← (rest.take 10).mapM String.toInt?)
    let more ← rows? fuel (rest.drop 10)
    return row :: more
  | _, _ => none

/-- The text form of a database. -/
def archive (ledger : Ledger) : String :=
  heading ++ String.join
    (([toString ledger.versions.length] ++ ledger.versions.map toString ++
      ledger.rows.flatMap rowTexts).map measured)

/-- The database with a given text form. -/
def ofArchive? (text : String) : Option Ledger := do
  let cs := text.toList
  if !heading.toList.isPrefixOf cs then none
  let body := cs.drop heading.length
  match ← texts? body.length body with
  | [] => none
  | count :: rest =>
    let size ← count.toNat?
    let versions ← (rest.take size).mapM String.toInt?
    let rows ← rows? rest.length (rest.drop size)
    return { rows, versions }

end Depends.Ledger
