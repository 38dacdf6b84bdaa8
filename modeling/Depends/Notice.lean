/-!
What a run has to say on the way: events with a level and a wording, in the order in which they happen.
-/
namespace Depends

/-- How much an event matters. -/
inductive Level where
  | debug
  | info
  | warn
  | error
  deriving DecidableEq, Repr

namespace Level

/-- The rank of a level; a logger keeps the levels from its own rank on. -/
def rank : Level → Nat
  | debug => 0
  | info => 1
  | warn => 2
  | error => 3

/-- The label of a level. -/
def label : Level → String
  | debug => "DEBUG"
  | info => "INFO"
  | warn => "WARN"
  | error => "ERROR"

end Level

/-- An event of a run. -/
inductive Notice where
  | scopeLeftOpen
  | duplicateType
  | unbalancedClose
  | dependencyFound
  | fileSkipped (cancelled : Bool)
  | analysisComplete
  | snapshotRecorded
  | snapshotFailed
  | startFailed
  | serverStarting
  | analysisFailed
  | reportFailed
  | historyFailed
  | watchFailed
  | watching
  | changesDetected
  | rerunFailed
  | runFinished
  deriving DecidableEq, Repr

namespace Notice

/-- The level of an event. -/
def level : Notice → Level
  | scopeLeftOpen | duplicateType | unbalancedClose | dependencyFound => .debug
  | fileSkipped cancelled => if cancelled then .debug else .warn
  | analysisComplete | serverStarting | watching | changesDetected => .info
  | snapshotRecorded | runFinished => .debug
  | snapshotFailed => .warn
  | startFailed | analysisFailed | reportFailed | historyFailed | watchFailed | rerunFailed => .error

/-- The wording of an event. -/
def message : Notice → String
  | scopeLeftOpen => "scope still open at end of file"
  | duplicateType => "duplicate type declaration"
  | unbalancedClose => "unbalanced closing brace"
  | dependencyFound => "dependency"
  | fileSkipped _ => "skipping file"
  | analysisComplete => "analysis complete"
  | snapshotRecorded => "recorded history snapshot"
  | snapshotFailed => "failed to record history snapshot"
  | startFailed => "failed to initialize app"
  | serverStarting => "observability server starting"
  | analysisFailed => "analysis failed"
  | reportFailed => "failed to write report"
  | historyFailed => "failed to load history"
  | watchFailed => "watch failed"
  | watching => "watching for changes"
  | changesDetected => "changes detected"
  | rerunFailed => "rerun failed"
  | runFinished => "run finished"

end Notice

end Depends
