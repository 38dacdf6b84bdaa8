import Depends.CommandLine.Modes
import Depends.History.Address
import Depends.Session.Run
import Depends.Settings.DotEnv
import Depends.Settings.File

/-!
A call of the program: what it prints, the code it ends with, the events it logs and the files it leaves.
Faults of the flags end it with code 2 and all others with code 1.
-/
namespace Depends.CommandLine

/-- What a call prints, and its code. -/
structure Answer where
  code : Nat := 0
  output : String := ""
  message : String := ""
  deriving DecidableEq, Repr

/-- A call: its arguments, the environment and the time. -/
structure Call where
  arguments : List String
  environment : Environment
  occasion : Occasion

/-- What a call leaves behind. `headline` is the first line on faulty flags, `log` has the lines that go
to the console, and a session is there when it is to go on with changes. -/
structure Outcome where
  answer : Answer
  files : Files
  log : List String := []
  headline : Option String := none
  session : Option Session := none

/-- The version of the program. -/
def versionLine : String := "depscan v1.0.0\n"

/-- A call that ends with a message. -/
def refusal (message : String) : Answer := { code := 1, message := message ++ "\n" }

/-- The settings file at a path. When there is none at the standard path, the settings are the standard
ones. -/
def loadSettings (files : Files) (path : String) : Except Failure Settings :=
  match files.opened path with
  | .error .missing =>
    if path == ({} : Options).config then .ok Settings.standard else Settings.load files path
  | _ => Settings.load files path

/-- The settings of a call, from the file, the environment and the options in this order, or the message
that ends it. -/
def Options.settings (o : Options) (files : Files) (env : Environment) : Except String Settings :=
  match loadSettings files o.config with
  | .error failure => .error ("failed to load config: " ++ failure.message)
  | .ok given =>
    match o.apply (env.apply given) with
    | .error failure => .error failure.message
    | .ok settings =>
      match settings.fault? with
      | some failure => .error ("invalid configuration: " ++ failure.message)
      | none => .ok settings

/-- The table of recorded runs. -/
def showHistory (o : Options) (s : Session) : Answer × Session :=
  match since o.since with
  | .error failure => (refusal failure.message, s)
  | .ok start =>
    match s.history start with
    | .error _ => ({ code := 1 }, s.note .historyFailed)
    | .ok snapshots => ({ output := Report.historyTable snapshots }, s)

/-- The shortest chain between two files. -/
def showChain (files : Files) (g : Graph) (source target : String) : Answer :=
  let resolved := Path.absolute files.workingDirectory
  match g.chain? (resolved source) (resolved target) with
  | some chain => { output := Report.chainLine chain }
  | none => refusal ("no dependency chain from " ++ source ++ " to " ++ target)

/-- The files that depend on a file. -/
def showImpact (files : Files) (g : Graph) (path : String) : Answer :=
  match g.impact (Path.absolute files.workingDirectory path) with
  | .ok impact => { output := Report.impactText impact }
  | .error _ => refusal (path ++ " was not analyzed")

/-- The answer to a question about the graph, if one was asked. -/
def Options.query? (o : Options) (files : Files) (g : Graph) : Option Answer :=
  if o.chain then some (showChain files g (o.arguments.getD 0 "") (o.arguments.getD 1 ""))
  else if o.impact != "" then some (showImpact files g o.impact)
  else none

/-- Writes the report to its file, or returns it when it has none. -/
def writeReport (s : Session) (now : Stamp) (a : Analysis) : Except Failure (String × Session) :=
  let text := s.report now a
  if s.settings.report.file == "" then .ok (text, s)
  else
    match s.files.writeWithFolders s.settings.report.file
        { content := .bytes (Text.encode text), modified := now.seconds } with
    | .ok files => .ok ("", { s with files })
    | .error failure => .error failure

/-- The report of an analysis with its summary. -/
def showReport (s : Session) (now : Stamp) (a : Analysis) : Answer × Session :=
  match writeReport s now a with
  | .error _ => ({ code := 1 }, s.note .reportFailed)
  | .ok (output, s) => ({ output, message := (Report.Summary.ofAnalysis a).text }, s.note .runFinished)

/-- Analyzes and answers. -/
def Options.perform (o : Options) (s : Session) (occasion : Occasion) : Answer × Session :=
  let s := if s.settings.monitor.enabled then s.note .serverStarting else s
  if o.history then showHistory o s
  else
    match s.run occasion with
    | (.error _, s) => ({ code := 1 }, s.note .analysisFailed)
    | (.ok a, s) =>
      match o.query? s.files a.graph with
      | some answer => (answer, s)
      | none => showReport s occasion.now a

/-- Goes on with changes when that is wanted and the report was given. -/
def goOn (o : Options) (answer : Answer) (s : Session) : Answer × Session × Bool :=
  if !s.settings.watch.enabled || o.modeCount != 0 || answer.code != 0 then (answer, s, false)
  else
    match s.watcher with
    | .error _ => ({ answer with code := 1 }, s.note .watchFailed, false)
    | .ok _ => (answer, s.note .watching, true)

/-- The lines that the log takes of a journal. -/
def logLines (settings : LogSettings) (verbose : Bool) (journal : List Notice) : List String :=
  let kept := journal.filter fun event => (logLevel settings.level verbose).rank ≤ event.level.rank
  kept.map fun event => event.level.label ++ " " ++ event.message

/-- Adds lines to a log file. A folder in its place is moved out of the way, and lines that cannot be
written are lost. -/
def appendLog (files : Files) (path : String) (now : Stamp) (lines : List String) : Files :=
  let data := Text.encode (String.join (lines.map (· ++ "\n")))
  let file (old : List UInt8) : File := { content := .bytes (old ++ data), modified := now.seconds }
  if lines.isEmpty then files
  else
    match files.opened path with
    | .ok (.file { content := .bytes old, .. }) => files.place path (file old)
    | .ok _ => files.place path (file [])
    | .error .missing => (files.writeWithFolders path (file [])).toOption.getD files
    | .error _ => files

/-- Ends a call with its log, which goes to the console or to a file. -/
def finish (settings : LogSettings) (verbose : Bool) (now : Stamp) (answer : Answer) (files : Files)
    (journal : List Notice) (session : Option Session) : Outcome :=
  let lines := logLines settings verbose journal
  if settings.file == "" then { answer, files, log := lines, session }
  else { answer, files := appendLog files settings.file now lines, session }

/-- A call with its settings. -/
def Options.carryOut (o : Options) (files : Files) (settings : Settings) (occasion : Occasion) : Outcome :=
  let finish := finish settings.log o.verbose occasion.now
  match Session.start files settings with
  | .error _ => finish { code := 1 } files [.startFailed] none
  | .ok session =>
    let (answer, session) := o.perform session occasion
    let (answer, session, goesOn) := goOn o answer session
    finish answer session.files session.journal (if goesOn then some session else none)

/-- The paths at which the settings of a call are found. -/
def Options.settingPaths (o : Options) : List String := [".env", o.config]

/-- The paths of the single files that a call may read or write. -/
def filePaths (settings : Settings) : List String :=
  let history := Text.trim settings.history.path
  ([history, Text.trim settings.log.file, Text.trim settings.report.file] ++
    (Address.ofPath? history).toList.map Address.name ++
    Report.Artifact.all.map fun kind => kind.target settings.output).filter (· != "")

/-- A call of the program on a file system. -/
def run (call : Call) (files : Files) : Outcome :=
  match Options.parse call.arguments with
  | .error fault => { answer := { code := 2 }, files, headline := some fault.headline }
  | .ok o =>
    if o.version then { answer := { output := versionLine }, files }
    else
      match o.settings files (DotEnv.load files call.environment [".env"]) with
      | .error message => { answer := refusal message, files }
      | .ok settings => o.carryOut files settings call.occasion

end Depends.CommandLine
