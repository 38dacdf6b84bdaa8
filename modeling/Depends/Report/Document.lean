import Depends.Analysis.Basic
import Depends.Report.Data
import Depends.Time.Duration

/-!
The machine-readable form of a run, with a summary of its counts.
-/
namespace Depends.Report

/-- The counts of a run and the text of its duration. -/
structure Summary where
  files : Nat
  types : Nat
  edges : Nat
  components : Nat
  cyclic : Nat
  failures : Nat
  duration : String
  deriving DecidableEq, Repr

/-- Counts a run. The duration is given in whole milliseconds. -/
def Summary.ofAnalysis (a : Analysis) : Summary :=
  { files := a.graph.size
    types := a.repository.types.count
    edges := a.graph.edgeCount
    components := a.components.length
    cyclic := a.cyclic.length
    failures := a.skipped.length
    duration := Duration.text (Duration.round a.duration Duration.millisecond) }

/-- The summary as a block of lines. -/
def Summary.text (s : Summary) : String :=
  "depscan\n" ++
    "files " ++ toString s.files ++ "  types " ++ toString s.types ++ "  edges " ++ toString s.edges ++
    "  components " ++ toString s.components ++ "\n" ++
    (if 0 < s.cyclic then toString s.cyclic ++ " cyclic component(s)" else "no cycles") ++ "\n" ++
    (if 0 < s.failures then toString s.failures ++ " file(s) skipped\n" else "") ++
    "analyzed in " ++ s.duration ++ "\n"

/-- A file with the labels of its edges. -/
structure FileEntry where
  path : String
  name : String
  dependsOn : List String
  deriving DecidableEq, Repr

/-- A declared type. -/
structure TypeEntry where
  name : String
  kind : String
  space : String
  file : String
  deriving DecidableEq, Repr

/-- A skipped file. -/
structure FailureEntry where
  path : String
  pass : String
  code : String
  error : String
  deriving DecidableEq, Repr

/-- A run for other programs. -/
structure Document where
  generated : Stamp
  summary : Summary
  files : List FileEntry
  components : List (List String)
  types : List TypeEntry
  failures : List FailureEntry
  deriving DecidableEq, Repr

namespace Document

/-- The document of a run at a time. -/
def ofAnalysis (generated : Stamp) (a : Analysis) : Document :=
  { generated
    summary := Summary.ofAnalysis a
    files := a.graph.nodes.map fun node =>
      { path := node.path, name := node.name, dependsOn := node.edges.map (·.label) }
    components := a.components.map fun members => a.graph.names (members.map Int.ofNat)
    types := a.repository.types.all.map fun (name, d) =>
      { name, kind := d.kind.label, space := d.spaceName, file := d.file }
    failures := a.skipped.map fun s =>
      { path := s.path, pass := s.pass.label, code := s.failure.code.label, error := s.failure.message } }

/-- The summary as data. -/
def summaryData (s : Summary) : Data :=
  .record
    [("files", .number s.files), ("types", .number s.types), ("edges", .number s.edges),
      ("components", .number s.components), ("cyclic", .number s.cyclic),
      ("failures", .number s.failures), ("duration", .text s.duration)]

/-- A file as data. -/
def fileData (f : FileEntry) : Data :=
  .record [("path", .text f.path), ("name", .text f.name), ("depends_on", .texts f.dependsOn)]

/-- A type as data; an empty namespace is left out. -/
def typeData (t : TypeEntry) : Data :=
  .record
    ([("name", .text t.name), ("kind", .text t.kind)] ++
      (if t.space == "" then [] else [("namespace", .text t.space)]) ++ [("file", .text t.file)])

/-- A skipped file as data. -/
def failureData (f : FailureEntry) : Data :=
  .record
    [("path", .text f.path), ("pass", .text f.pass), ("code", .text f.code), ("error", .text f.error)]

/-- The document as data. Failures are left out when there are none. -/
def data (d : Document) : Data :=
  .record
    ([("generated_at", .moment d.generated), ("summary", summaryData d.summary),
        ("files", .list (d.files.map fileData)), ("components", .list (d.components.map Data.texts)),
        ("types", if d.types.isEmpty then .unset else .list (d.types.map typeData))] ++
      (if d.failures.isEmpty then [] else [("failures", .list (d.failures.map failureData))]))

end Document

end Depends.Report
