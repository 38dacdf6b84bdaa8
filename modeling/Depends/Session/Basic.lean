import Depends.Analysis.Cache
import Depends.Analysis.Run
import Depends.Glob.Answers
import Depends.History.Store
import Depends.Notice
import Depends.Settings.Basic

/-!
A session: the settings at work on a file system. It keeps what was read for the next run, the last
analysis, the history of runs and the events on the way.
-/
namespace Depends

/-- A session. The filter and the rule options are those of the settings at the start; the settings may
change later. -/
structure Session where
  files : Files
  settings : Settings
  filter : FileFilter
  options : RuleOptions
  cache : SemiCache
  store : Option Store := none
  last : Option Analysis := none
  journal : List Notice := []

/-- Why a session cannot start. -/
inductive StartFault where
  | badGlob
  | failed (failure : Failure)
  deriving DecidableEq, Repr

/-- The rule options of the settings, with the standard ones for what is not given. -/
def AnalysisSettings.ruleOptions (s : AnalysisSettings) : RuleOptions :=
  { builtinRoot := if s.builtinRoot == "" then RuleOptions.standard.builtinRoot else s.builtinRoot
    controlWords := if s.controlWords.all.isEmpty then RuleOptions.standardControl else s.controlWords.all }

/-- The file filter of the settings. -/
def ScanSettings.filter? (s : ScanSettings) : Option FileFilter :=
  FileFilter.compile? s.pattern s.excludedTexts.all s.excludedFolders.all s.excludedFiles.all

namespace Session

/-- Starts a session; the history is opened when the settings ask for it. -/
def start (files : Files) (settings : Settings) : Except StartFault Session :=
  match settings.scan.filter? with
  | none => .error .badGlob
  | some filter =>
    let session :=
      { files, settings, filter, options := settings.analysis.ruleOptions
        cache := SemiCache.ofSize settings.cachedFiles }
    if settings.history.enabled then
      match Store.openAt files settings.history.path with
      | .error failure => .error (.failed failure)
      | .ok (store, files) => .ok { session with files, store := some store }
    else .ok session

/-- Adds an event. -/
def note (s : Session) (event : Notice) : Session := { s with journal := s.journal ++ [event] }

/-- Closes the history. Everything else goes on. -/
def close (s : Session) : Session := { s with store := s.store.map Store.close }

/-- The snapshots of the project from a time on; a session without history has none. -/
def history (s : Session) (since : Stamp) : Except Failure (List Snapshot) :=
  match s.store with
  | none => .ok []
  | some store => store.load s.settings.history.projectKey since

end Session

end Depends
