import Depends.Settings.Basic

/-!
Every setting with the group and the name under which it is given, and with the way to read and to
replace it.
-/
namespace Depends

/-- A place among the settings, by the type of its value. -/
inductive Slot where
  | text (get : Settings → String) (set : String → Settings → Settings)
  | truth (get : Settings → Bool) (set : Bool → Settings → Settings)
  | whole (get : Settings → Int) (set : Int → Settings → Settings)
  | decimal (get : Settings → Rat) (set : Rat → Settings → Settings)
  | duration (get : Settings → Int) (set : Int → Settings → Settings)
  | entries (get : Settings → Entries) (set : Entries → Settings → Settings)

/-- A setting by name; those of the top level have no group. -/
structure Setting where
  group : String
  name : String
  slot : Slot

namespace Settings

/-- The settings about what is scanned. -/
def scanSlots : List Setting :=
  [⟨"scan", "pattern", .text (·.scan.pattern) fun v s => { s with scan.pattern := v }⟩,
    ⟨"scan", "recursive", .truth (·.scan.recursive) fun v s => { s with scan.recursive := v }⟩,
    ⟨"scan", "exclude_substrings",
      .entries (·.scan.excludedTexts) fun v s => { s with scan.excludedTexts := v }⟩,
    ⟨"scan", "exclude_dirs",
      .entries (·.scan.excludedFolders) fun v s => { s with scan.excludedFolders := v }⟩,
    ⟨"scan", "exclude_files",
      .entries (·.scan.excludedFiles) fun v s => { s with scan.excludedFiles := v }⟩]

/-- The settings about the analysis. -/
def analysisSlots : List Setting :=
  [⟨"analysis", "builtin_root",
      .text (·.analysis.builtinRoot) fun v s => { s with analysis.builtinRoot := v }⟩,
    ⟨"analysis", "workers", .whole (·.analysis.workers) fun v s => { s with analysis.workers := v }⟩,
    ⟨"analysis", "control_keywords",
      .entries (·.analysis.controlWords) fun v s => { s with analysis.controlWords := v }⟩]

/-- The settings about the report. -/
def reportSlots : List Setting :=
  [⟨"report", "dependencies",
      .truth (·.report.dependencies) fun v s => { s with report.dependencies := v }⟩,
    ⟨"report", "strong_components",
      .truth (·.report.components) fun v s => { s with report.components := v }⟩,
    ⟨"report", "type_table", .truth (·.report.typeTable) fun v s => { s with report.typeTable := v }⟩,
    ⟨"report", "alias_table", .truth (·.report.aliasTable) fun v s => { s with report.aliasTable := v }⟩,
    ⟨"report", "metrics", .truth (·.report.metrics) fun v s => { s with report.metrics := v }⟩,
    ⟨"report", "output_file", .text (·.report.file) fun v s => { s with report.file := v }⟩,
    ⟨"report", "formats", .entries (·.report.formats) fun v s => { s with report.formats := v }⟩]

/-- The settings about further files. -/
def outputSlots : List Setting :=
  [⟨"output", "root", .text (·.output.root) fun v s => { s with output.root := v }⟩,
    ⟨"output", "dot", .text (·.output.dot) fun v s => { s with output.dot := v }⟩,
    ⟨"output", "mermaid", .text (·.output.mermaid) fun v s => { s with output.mermaid := v }⟩,
    ⟨"output", "plantuml", .text (·.output.plantUml) fun v s => { s with output.plantUml := v }⟩,
    ⟨"output", "tsv", .text (·.output.tsv) fun v s => { s with output.tsv := v }⟩,
    ⟨"output", "yaml", .text (·.output.yaml) fun v s => { s with output.yaml := v }⟩,
    ⟨"output", "json", .text (·.output.json) fun v s => { s with output.json := v }⟩]

/-- The settings about watching and recording. -/
def watchSlots : List Setting :=
  [⟨"watch", "enabled", .truth (·.watch.enabled) fun v s => { s with watch.enabled := v }⟩,
    ⟨"watch", "debounce", .duration (·.watch.quiet) fun v s => { s with watch.quiet := v }⟩,
    ⟨"watch", "max_rate", .decimal (·.watch.rate) fun v s => { s with watch.rate := v }⟩,
    ⟨"db", "enabled", .truth (·.history.enabled) fun v s => { s with history.enabled := v }⟩,
    ⟨"db", "path", .text (·.history.path) fun v s => { s with history.path := v }⟩,
    ⟨"db", "project_key", .text (·.history.projectKey) fun v s => { s with history.projectKey := v }⟩,
    ⟨"caches", "semis", .whole (·.cachedFiles) fun v s => { s with cachedFiles := v }⟩]

/-- The settings about monitors and logs. -/
def monitorSlots : List Setting :=
  [⟨"observability", "enabled", .truth (·.monitor.enabled) fun v s => { s with monitor.enabled := v }⟩,
    ⟨"observability", "address", .text (·.monitor.address) fun v s => { s with monitor.address := v }⟩,
    ⟨"observability", "otlp_endpoint",
      .text (·.monitor.endpoint) fun v s => { s with monitor.endpoint := v }⟩,
    ⟨"observability", "enable_tracing",
      .truth (·.monitor.tracing) fun v s => { s with monitor.tracing := v }⟩,
    ⟨"log", "file", .text (·.log.file) fun v s => { s with log.file := v }⟩,
    ⟨"log", "level", .text (·.log.level) fun v s => { s with log.level := v }⟩,
    ⟨"log", "max_size", .whole (·.log.maxSize) fun v s => { s with log.maxSize := v }⟩,
    ⟨"log", "max_backups", .whole (·.log.maxBackups) fun v s => { s with log.maxBackups := v }⟩,
    ⟨"log", "max_age", .whole (·.log.maxAge) fun v s => { s with log.maxAge := v }⟩,
    ⟨"log", "compress", .truth (·.log.compress) fun v s => { s with log.compress := v }⟩]

/-- Every setting. -/
def slots : List Setting :=
  [⟨"", "version", .whole (·.version) fun v s => { s with version := v }⟩,
    ⟨"", "scan_paths", .entries (·.scanPaths) fun v s => { s with scanPaths := v }⟩] ++
    scanSlots ++ analysisSlots ++ reportSlots ++ outputSlots ++ watchSlots ++ monitorSlots

/-- The setting with a group and a name. -/
def slot? (group name : String) : Option Slot :=
  (slots.find? fun setting => setting.group == group && setting.name == name).map (·.slot)

end Settings

end Depends
