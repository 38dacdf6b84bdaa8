import Depends.Session.Basic
import Depends.Report.Data

/-!
The state of a session for monitors.
-/
namespace Depends

/-- The state of a session: whether all is well, and a line for each part in the order of their names. -/
structure Health where
  isUp : Bool
  parts : List (String × String)
  deriving DecidableEq, Repr

namespace Health

/-- The word for the state. -/
def status (h : Health) : String := if h.isUp then "up" else "degraded"

/-- The state at a time as one line of JSON. -/
def json (h : Health) (now : Stamp) : String :=
  let pair (name value : String) := Report.Data.jsonText name ++ ":" ++ value
  let record (fields : List String) := "\x7b" ++ Text.join "," fields ++ "\x7d"
  record
    [pair "status" (Report.Data.jsonText h.status), pair "timestamp" (Report.Data.jsonText now.text),
      pair "components" (record (h.parts.map fun part => pair part.1 (Report.Data.jsonText part.2)))] ++ "\n"

end Health

namespace Session

/-- What is said about the last analysis. -/
def analysisHealth (s : Session) : String :=
  match s.last with
  | none => "pending"
  | some a =>
    "ok (" ++ toString a.graph.size ++ " files, " ++ toString a.graph.edgeCount ++ " edges, " ++
      toString a.skipped.length ++ " failures)"

/-- What is said about the history: nothing when it is neither there nor wanted. -/
def historyHealth? (s : Session) : Option String :=
  if s.store.isSome then some "ok"
  else if s.settings.history.enabled then some "missing but enabled in config"
  else none

/-- The state of a session. It is degraded only when a wanted history is missing. -/
def health (s : Session) : Health :=
  { isUp := s.store.isSome || !s.settings.history.enabled
    parts :=
      [("analysis", s.analysisHealth)] ++ s.historyHealth?.toList.map (fun text => ("history", text)) ++
        [("semi_cache", "ok (" ++ toString s.cache.size ++ " files)")] }

end Session

end Depends
