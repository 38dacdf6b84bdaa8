import Depends.Declaration.Table
import Depends.Graph.Metrics
import Depends.History.Snapshot
import Depends.Text.Utf8
import Depends.Report.Layout
import Depends.Repository.Basic

/-!
The tables of the reports: types, aliases, declarations, files and recorded runs.
-/
namespace Depends.Report

/-- Every declared type, by name. -/
def typeTable (types : TypeTable) : String :=
  Table.text
    { header := ["Name", "Kind", "Namespace", "File"]
      rows := types.all.map fun (name, d) => [name, d.kind.label, d.spaceName, d.fileName] }

/-- The aliases of every file. -/
def aliasTable (r : Repository) : String :=
  Table.text
    { header := ["File", "Alias", "Target"]
      rows := r.aliasFiles.flatMap fun file =>
        (r.aliasesOf file).map fun (name, target) => [file, name, Text.join "." target] }

/-- The row of a declaration. Its size counts lines and its complexity the scopes opened inside, itself
included; both are unknown until it has ended. -/
def declarationRow (d : Declaration) : List Cell :=
  let ended := d.beginLine ≤ d.endLine ∧ 0 < d.endLine
  let span (first last : Int) := if ended then toString (Number.wrap64 (last - first + 1)) else "-"
  [d.fileName, d.kind.label, d.name, toString d.beginLine, toString d.endLine,
    span d.beginLine d.endLine, span d.beginScopes d.endScopes]

/-- The size and complexity of every recorded declaration. -/
def declarationTable (locations : List Declaration) : String :=
  Table.text
    { header := ["File", "Category", "Name", "Begin", "End", "Size", "Complexity"]
      rows := locations.map declarationRow
      aligns := [.left, .left, .left, .right, .right, .right, .right] }

/-- The position of every file, with the number of files below. -/
def fileTable (rows : List FileMetrics) : String :=
  Table.text
    { header := ["File", "FanIn", "FanOut", "Depth", "Cycle", "Importance"]
      rows := rows.map fun m =>
        [m.name, toString m.fanIn, toString m.fanOut, toString m.depth, if m.inCycle then "yes" else "",
          Number.twoPlaces m.importance]
      footer := ["Total Files " ++ toString rows.length, "", "", "", "", ""] }

/-- The first eight bytes of a run id; a character that they cut is shown by its bytes. -/
def shortId (id : String) : Cell :=
  if id.utf8ByteSize ≤ 8 then { text := id }
  else
    let (whole, cut) := Text.fitting 8 id.toList
    { text := String.ofList (whole ++ List.replicate cut Text.replacement), cut }

/-- The recorded runs. -/
def historyTable (snapshots : List Snapshot) : String :=
  Table.text
    { header := ["Time", "Run", "Files", "Types", "Edges", "Components", "Cyclic", "Failures"]
      rows := snapshots.map fun s =>
        [s.stamp.clock " ", shortId s.runId, toString s.counts.files, toString s.counts.types,
          toString s.counts.edges, toString s.counts.components, toString s.counts.cyclic,
          toString s.counts.failures] }

end Depends.Report
