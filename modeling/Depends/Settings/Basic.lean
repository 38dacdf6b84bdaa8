import Depends.Failure
import Depends.Glob.Compile
import Depends.Text.Lower
import Depends.Text.Quoted
import Depends.Time.Duration

/-!
The settings of the program, their standard values, and the conditions that they have to meet.
-/
namespace Depends

/-- A list of texts that may never have been given. -/
abbrev Entries := Option (List String)

/-- The texts of a list; one that was never given has none. -/
def Entries.all (entries : Entries) : List String := entries.getD []

/-- Which files are scanned. -/
structure ScanSettings where
  pattern : String := ""
  recursive : Bool := false
  excludedTexts : Entries := none
  excludedFolders : Entries := none
  excludedFiles : Entries := none
  deriving DecidableEq, Repr

/-- How files are analyzed. -/
structure AnalysisSettings where
  builtinRoot : String := ""
  workers : Int := 0
  controlWords : Entries := none
  deriving DecidableEq, Repr

/-- What is reported. -/
structure ReportSettings where
  dependencies : Bool := false
  components : Bool := false
  typeTable : Bool := false
  aliasTable : Bool := false
  metrics : Bool := false
  file : String := ""
  formats : Entries := none
  deriving DecidableEq, Repr

/-- Where further files are written. -/
structure OutputSettings where
  root : String := ""
  dot : String := ""
  mermaid : String := ""
  plantUml : String := ""
  tsv : String := ""
  yaml : String := ""
  json : String := ""
  deriving DecidableEq, Repr

/-- Whether and how changes are watched. The quiet period is in nanoseconds, the rate in runs per
second. -/
structure WatchSettings where
  enabled : Bool := false
  quiet : Int := 0
  rate : Rat := 0
  deriving DecidableEq, Repr

/-- Where runs are recorded. -/
structure HistorySettings where
  enabled : Bool := false
  path : String := ""
  projectKey : String := ""
  deriving DecidableEq, Repr

/-- What is served to monitors. -/
structure MonitorSettings where
  enabled : Bool := false
  address : String := ""
  endpoint : String := ""
  tracing : Bool := false
  deriving DecidableEq, Repr

/-- Where events are logged. -/
structure LogSettings where
  file : String := ""
  level : String := ""
  maxSize : Int := 0
  maxBackups : Int := 0
  maxAge : Int := 0
  compress : Bool := false
  deriving DecidableEq, Repr

/-- All settings. -/
structure Settings where
  version : Int := 0
  scanPaths : Entries := none
  scan : ScanSettings := {}
  analysis : AnalysisSettings := {}
  report : ReportSettings := {}
  output : OutputSettings := {}
  watch : WatchSettings := {}
  history : HistorySettings := {}
  cachedFiles : Int := 0
  monitor : MonitorSettings := {}
  log : LogSettings := {}
  deriving DecidableEq, Repr

namespace Settings

/-- A text, or the standard one when it is blank. -/
def textOr (standard value : String) : String := if Text.isBlank value then standard else value

/-- A number, or the standard one when it is not positive. -/
def positiveOr (standard value : Int) : Int := if value ≤ 0 then standard else value

/-- A list, or the standard one when it has no entries. -/
def entriesOr (standard : List String) (entries : Entries) : Entries :=
  if entries.all.isEmpty then some standard else entries

/-- Fills in standard values where nothing usable was given. -/
def withDefaults (s : Settings) : Settings :=
  { s with
    version := if s.version = 0 then 1 else s.version
    scanPaths := entriesOr ["."] s.scanPaths
    scan :=
      { s.scan with
        pattern := textOr "*.cs" s.scan.pattern
        excludedTexts :=
          s.scan.excludedTexts <|> some ["AssemblyInfo", ".Designer.", ".g.cs", "TemporaryGeneratedFile"]
        excludedFolders := s.scan.excludedFolders <|> some [".git", "bin", "obj", "node_modules"] }
    analysis :=
      { s.analysis with
        builtinRoot := textOr "System" s.analysis.builtinRoot
        workers := positiveOr 1 s.analysis.workers }
    report := { s.report with formats := entriesOr ["text"] s.report.formats }
    output := { s.output with root := textOr "." s.output.root }
    watch :=
      { s.watch with
        quiet := if s.watch.quiet = 0 then 500 * Duration.millisecond else s.watch.quiet
        rate := if s.watch.rate ≤ 0 then 1 else s.watch.rate }
    history :=
      { s.history with
        path := textOr "depscan-history.db" s.history.path
        projectKey := textOr "default" s.history.projectKey }
    cachedFiles := positiveOr 2048 s.cachedFiles
    monitor := { s.monitor with address := textOr "127.0.0.1:9464" s.monitor.address }
    log :=
      { s.log with
        level := textOr "info" s.log.level
        maxSize := positiveOr 10 s.log.maxSize
        maxBackups := positiveOr 3 s.log.maxBackups
        maxAge := positiveOr 28 s.log.maxAge } }

/-- The settings without any file: dependencies and components are reported. -/
def standard : Settings :=
  withDefaults { report := { dependencies := true, components := true } }

/-- Trims the scan pattern, the scan paths, the formats and the log level; formats and level are in
lower case, and empty paths are dropped. -/
def normalized (s : Settings) : Settings :=
  { s with
    scan := { s.scan with pattern := Text.trim s.scan.pattern }
    log := { s.log with level := Text.lower (Text.trim s.log.level) }
    report :=
      { s.report with formats := s.report.formats.map fun fs => fs.map fun f => Text.lower (Text.trim f) }
    scanPaths := s.scanPaths.map fun paths => (paths.map Text.trim).filter (· != "") }

/-- The first glob that cannot be compiled. -/
def badGlob? (s : Settings) : Option String :=
  (s.scan.pattern :: s.scan.excludedFolders.all ++ s.scan.excludedFiles.all).find? fun glob =>
    (Glob.compile? glob).isNone

/-- The version is supported. -/
def checkVersion (s : Settings) : Option String :=
  if s.version = 1 then none
  else some ("unsupported config version " ++ toString s.version ++ "; supported version is 1")

/-- There are paths, the pattern names an extension, every glob compiles and no excluded text is
blank. -/
def checkScan (s : Settings) : Option String :=
  if s.scanPaths.all.isEmpty then some "scan_paths must contain at least one path"
  else if ¬ ['*', '.'].isPrefixOf s.scan.pattern.toList ∨ s.scan.pattern.utf8ByteSize < 3 then
    some ("scan.pattern must look like *.<ext>, got " ++ Text.quoted s.scan.pattern)
  else
    match s.badGlob? with
    | some glob => some ("invalid glob " ++ Text.quoted glob)
    | none =>
      (s.scan.excludedTexts.all.findIdx? Text.isBlank).map fun i =>
        "scan.exclude_substrings[" ++ toString i ++ "] must not be empty"

/-- The workers are not too many. -/
def checkAnalysis (s : Settings) : Option String :=
  if s.analysis.workers ≤ 256 then none
  else some ("analysis.workers must be <= 256, got " ++ toString s.analysis.workers)

/-- Every format is known. -/
def checkReport (s : Settings) : Option String :=
  (s.report.formats.all.find? fun f => !(["text", "yaml", "json"].contains f)).map fun f =>
    "report.formats entries must be one of: text, yaml, json (got " ++ Text.quoted f ++ ")"

/-- The quiet period is not negative. -/
def checkWatch (s : Settings) : Option String :=
  if s.watch.quiet < 0 then some "watch.debounce must not be negative" else none

/-- The log level is known. -/
def checkLog (s : Settings) : Option String :=
  if ["debug", "info", "warn", "error"].contains s.log.level then none
  else some "log.level must be one of: debug, info, warn, error"

/-- The first condition that the settings do not meet. -/
def fault? (s : Settings) : Option Failure :=
  let checks := [checkVersion, checkScan, checkAnalysis, checkReport, checkWatch, checkLog]
  (checks.findSome? fun check => check s).map fun text =>
    (Failure.plain text).wrap .validation "invalid config"

end Settings

end Depends
