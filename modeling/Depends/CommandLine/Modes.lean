import Depends.CommandLine.Options
import Depends.Notice
import Depends.Time.Stamp

/-!
How options meet settings: which modes fit together, what a given flag overrides, and how times and log
levels are read.
-/
namespace Depends.CommandLine

/-- The number of query modes that were asked for. -/
def Options.modeCount (o : Options) : Nat := [o.chain, o.impact != "", o.history].countP id

/-- Why the options do not fit together, or not with the settings. -/
def Options.conflict? (o : Options) (s : Settings) : Option String :=
  if 1 < o.modeCount then some "--chain, --impact and --history cannot be combined"
  else if 0 < o.modeCount ∧ o.watch then
    some "--watch cannot be combined with --chain, --impact or --history"
  else if o.since ≠ "" ∧ ¬ o.history then some "--since requires --history"
  else if o.history ∧ ¬ s.history.enabled then some "--history requires [db] enabled = true"
  else if o.chain ∧ o.arguments.length ≠ 2 then
    some "chain mode requires two file arguments: depscan --chain <from> <to>"
  else none

/-- A switch overrides a setting only when it was given. -/
def Options.switched (o : Options) (name : String) (value setting : Bool) : Bool :=
  if o.given.contains name then value else setting

/-- A text overrides a setting unless it is empty. -/
def overridden (value setting : String) : String := if value == "" then setting else value

/-- The settings with the options put in. -/
def Options.override (o : Options) (s : Settings) : Settings :=
  { s with
    scanPaths := if o.chain || o.arguments.isEmpty then s.scanPaths else some o.arguments
    scan.recursive := o.switched "recursive" o.recursive s.scan.recursive
    report :=
      { s.report with
        dependencies := o.switched "deps" o.dependencies s.report.dependencies
        components := o.switched "scc" o.components s.report.components
        typeTable := o.switched "types" o.types s.report.typeTable
        aliasTable := o.switched "aliases" o.aliases s.report.aliasTable
        metrics := o.switched "metrics" o.metrics s.report.metrics
        formats := if o.format == "" then s.report.formats else some [o.format]
        file := overridden o.output s.report.file }
    watch.enabled := o.switched "watch" o.watch s.watch.enabled
    log.file := overridden o.logFile s.log.file
    analysis.workers := if 0 < o.workers then o.workers else s.analysis.workers }

/-- The settings that the options lead to. -/
def Options.apply (o : Options) (s : Settings) : Except Failure Settings :=
  match o.conflict? s with
  | some text => .error (.plain text)
  | none => .ok (o.override s)

/-- The time that a text stands for: none for an empty text, a time with offset, or a date. -/
def since (value : String) : Except Failure Stamp :=
  if value == "" then .ok Stamp.zero
  else
    match (Stamp.ofText? value).orElse fun _ => Stamp.ofDate? value with
    | some stamp => .ok stamp.utc
    | none =>
      .error (.plain ("invalid --since value " ++ Text.quoted value ++ ": expected RFC3339 or YYYY-MM-DD"))

/-- The level from which events are logged. -/
def logLevel (level : String) (verbose : Bool) : Level :=
  if verbose then .debug
  else
    match Text.lower level with
    | "debug" => .debug
    | "warn" => .warn
    | "error" => .error
    | _ => .info

end Depends.CommandLine
