import Depends.Report.Formats
import Depends.Report.Listing
import Depends.Report.Tables
import Depends.Settings.Basic

/-!
The report of a run as the settings ask for it: one part per format, where the text format has one
section per kind of result.
-/
namespace Depends.Report

/-- A part that is wanted or not. -/
def chapter (wanted : Bool) (text : Unit → String) : String := if wanted then text () else ""

/-- The sections of the text format. -/
def sections (settings : ReportSettings) (a : Analysis) : String :=
  chapter settings.dependencies (fun _ => dependencies a.graph) ++
    chapter settings.components (fun _ => "Strong components:\n" ++ componentLines a.graph a.indices) ++
    chapter settings.typeTable (fun _ => "Types:\n" ++ typeTable a.repository.types) ++
    chapter settings.aliasTable (fun _ => "Aliases:\n" ++ aliasTable a.repository) ++
    chapter settings.metrics (fun _ =>
      "Declarations:\n" ++ declarationTable a.repository.locations ++ "Files:\n" ++
        fileTable a.graph.metrics)

/-- The part of a format. A name that is no document format stands for the text format. -/
def part (settings : ReportSettings) (now : Stamp) (a : Analysis) (format : String) : String :=
  match format with
  | "json" => (Document.ofAnalysis now a).data.json
  | "yaml" => Yaml.document (Document.ofAnalysis now a).data
  | _ => sections settings a

/-- The report of a run in all formats that are asked for. -/
def console (settings : ReportSettings) (now : Stamp) (a : Analysis) : String :=
  String.join (settings.formats.all.map (part settings now a))

end Depends.Report
