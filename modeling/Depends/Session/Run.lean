import Depends.Report.Artifact
import Depends.Report.Console
import Depends.Session.Basic

/-!
Runs of a session: find the files, analyze them, record the run and write what the settings ask for.
-/
namespace Depends

/-- The snapshot of an analysis. -/
def Analysis.snapshot (a : Analysis) (projectKey : String) (now : Stamp) : Snapshot :=
  let rows := a.graph.metrics
  { projectKey
    stamp := now.utc
    duration := a.duration
    counts :=
      { files := a.files.length
        failures := a.skipped.length
        types := a.repository.types.count
        edges := a.graph.edgeCount
        components := a.components.length
        cyclic := a.cyclic.length
        maxFanIn := (rows.map (·.fanIn)).foldl max 0
        maxFanOut := (rows.map (·.fanOut)).foldl max 0 } }

/-- What a rerun tells the one who waits for changes. -/
structure Update where
  analysis : Analysis
  changed : List String

namespace Session

/-- The files to analyze. -/
def scan (s : Session) : Except Failure (List String) :=
  let roots := s.settings.scanPaths.all
  match s.files.unanswered? s.filter s.settings.scan.recursive roots with
  | some path => .error (.unanswered path)
  | none => s.files.scan s.filter s.settings.scan.recursive roots

/-- Records an analysis in the history, if there is one. A history that refuses is only noted. -/
def record (s : Session) (occasion : Occasion) (a : Analysis) : Session :=
  match s.store with
  | none => s
  | some store =>
    match store.save occasion (a.snapshot s.settings.history.projectKey occasion.now) with
    | .error _ => s.note .snapshotFailed
    | .ok (_, store) =>
      ({ s with store := some store, files := store.written s.files } : Session).note .snapshotRecorded

/-- Reads files through the cache of the session. -/
def source : SemiSource (SemiCache × Files) := (SemiSource.reading Lexicon.standard false).cached id

/-- Analyzes files into a fresh repository and records the run. -/
def analyze (s : Session) (occasion : Occasion) (paths : List String) :
    Except Failure Analysis × Session :=
  match Depends.analyze source s.options paths (s.cache, s.files) with
  | (.error failure, cache, _) => (.error failure, { s with cache })
  | (.ok a, cache, _) =>
    let a := { a with duration := occasion.elapsed }
    let s := { s with cache, last := some a, journal := s.journal ++ a.repository.journal }
    (.ok a, s.record occasion a)

/-- Writes the files that the settings ask for beside the report. Those before a failing one stay. -/
def writeArtifacts (s : Session) (now : Stamp) (a : Analysis) : Option Failure × Session :=
  let (failure, files) := Report.Artifact.writeEach s.settings.output now a Report.Artifact.all s.files
  (failure, { s with files })

/-- One run: find, analyze, record, write. -/
def run (s : Session) (occasion : Occasion) : Except Failure Analysis × Session :=
  match s.scan with
  | .error failure => (.error failure, s)
  | .ok paths =>
    match s.analyze occasion paths with
    | (.error failure, s) => (.error failure, s)
    | (.ok a, s) =>
      match s.writeArtifacts occasion.now a with
      | (some failure, s) => (.error failure, s)
      | (none, s) => (.ok a, s)

/-- The report of an analysis. -/
def report (s : Session) (now : Stamp) (a : Analysis) : String :=
  Report.console s.settings.report now a

/-- One run after changes. A run that fails is only noted. -/
def rerun (s : Session) (occasion : Occasion) (changed : List String) : Option Update × Session :=
  match (s.note .changesDetected).run occasion with
  | (.ok analysis, s) => (some { analysis, changed }, s)
  | (.error _, s) => (none, s.note .rerunFailed)

/-- A watcher that listens to the roots of the scan. -/
def watcher (s : Session) : Except Failure Watcher :=
  s.settings.scanPaths.all.foldlM (fun w root => w.addRoot s.files root)
    { filter := s.filter, recursive := s.settings.scan.recursive }

/-- The files of a scan that are not the same in another state of the file system. -/
def changes (s : Session) (files : Files) : List String :=
  let found (files : Files) := (({ s with files } : Session).scan).toOption.getD []
  let seen (files : Files) (path : String) :=
    match files.stat path with
    | .ok (.file file) => some file.info
    | _ => none
  (mergeBatches (found s.files) [found files]).filter fun path => seen s.files path != seen files path

end Session

end Depends
