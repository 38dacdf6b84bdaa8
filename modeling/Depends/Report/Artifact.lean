import Depends.Report.Diagram.Dot
import Depends.Report.Diagram.Mermaid
import Depends.Report.Diagram.PlantUml
import Depends.Report.Diagram.Tsv
import Depends.Files.Tree
import Depends.Report.Formats
import Depends.Settings.Basic

/-!
The files that a run can write beside its report: diagrams, an edge list and two documents.
-/
namespace Depends.Report

/-- A kind of file that a run can write. -/
inductive Artifact where
  | dot
  | mermaid
  | plantUml
  | tsv
  | yaml
  | json
  deriving DecidableEq, Repr

namespace Artifact

/-- All kinds in the order in which they are written. -/
def all : List Artifact := [dot, mermaid, plantUml, tsv, yaml, json]

/-- What a kind is called in messages. -/
def title : Artifact → String
  | dot => "DOT output"
  | mermaid => "Mermaid output"
  | plantUml => "PlantUML output"
  | tsv => "TSV output"
  | yaml => "yaml report"
  | json => "json report"

/-- The path that the settings give for a kind. -/
def path (settings : OutputSettings) : Artifact → String
  | dot => settings.dot
  | mermaid => settings.mermaid
  | plantUml => settings.plantUml
  | tsv => settings.tsv
  | yaml => settings.yaml
  | json => settings.json

/-- Where a kind is written: an absolute path stays, another one is taken from the output root, and an
empty one means that the kind is not wanted. -/
def target (settings : OutputSettings) (kind : Artifact) : String :=
  let path := Text.trim (kind.path settings)
  if path == "" || Path.isAbsolute path then path else Path.append settings.root path

/-- The content of a kind. -/
def render (now : Stamp) (a : Analysis) : Artifact → String
  | dot => Report.dot a.graph a.indices
  | mermaid => Report.mermaid a.graph a.indices
  | plantUml => Report.plantUml a.graph a.indices
  | tsv => Report.tsv a.graph a.indices
  | yaml => Yaml.document (Document.ofAnalysis now a).data
  | json => (Document.ofAnalysis now a).data.json

/-- Writes one kind if it is wanted. -/
def write (settings : OutputSettings) (now : Stamp) (a : Analysis) (files : Files) (kind : Artifact) :
    Except Failure Files :=
  let target := kind.target settings
  if target == "" then .ok files
  else
    let file := { content := .bytes (Text.encode (kind.render now a)), modified := now.seconds }
    match files.writeWithFolders target file with
    | .ok files => .ok files
    | .error failure =>
      .error (failure.remark ("write " ++ kind.title ++ " " ++ Text.quoted target))

/-- Writes kinds one after the other until one fails. -/
def writeEach (settings : OutputSettings) (now : Stamp) (a : Analysis) :
    List Artifact → Files → Option Failure × Files
  | [], files => (none, files)
  | kind :: kinds, files =>
    match write settings now a files kind with
    | .ok files => writeEach settings now a kinds files
    | .error failure => (some failure, files)

end Artifact

end Depends.Report
