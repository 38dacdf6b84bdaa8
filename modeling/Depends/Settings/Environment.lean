import Depends.Settings.Slots
import Depends.Text.Whole

/-!
Environment variables and what they override. A variable that does not read as its setting's type is
passed over.
-/
namespace Depends

/-- Variables with their values. -/
abbrev Environment := List (String × String)

namespace Environment

/-- A truth value in any case, long or short. -/
def truth? (value : String) : Option Bool :=
  match Text.lower value with
  | "1" | "t" | "true" => some true
  | "0" | "f" | "false" => some false
  | _ => none

/-- The entries between commas that are not blank, if there are any. -/
def entries? (value : String) : Option Entries :=
  let parts := ((Text.split ',' value).map Text.trim).filter (· != "")
  if parts.isEmpty then none else some (some parts)

/-- Puts the value of a variable into a slot. -/
def store? (s : Settings) (value : String) : Slot → Option Settings
  | .text _ set => some (set value s)
  | .truth _ set => (truth? value).map fun b => set b s
  | .whole _ set => (Text.Whole.ofDecimal value).toOption.map fun n => set n s
  | .duration _ set => (Duration.ofText? value).map fun d => set d s
  | .entries _ set => (entries? value).map fun e => set e s
  | .decimal _ _ => none

/-- The settings that variables can override. -/
def overridable : List (String × String) :=
  [("scan", "pattern"), ("scan", "recursive"), ("", "scan_paths"), ("analysis", "builtin_root"),
    ("analysis", "workers"), ("report", "dependencies"), ("report", "strong_components"),
    ("report", "output_file"), ("watch", "enabled"), ("watch", "debounce"), ("db", "enabled"),
    ("db", "path"), ("caches", "semis"), ("observability", "enabled"), ("observability", "address"),
    ("observability", "otlp_endpoint"), ("observability", "enable_tracing"), ("log", "file"),
    ("log", "level")]

/-- The name of the variable for a setting: program, group and name in capitals. -/
def variableName (group name : String) : String :=
  let parts := ["depscan"] ++ (if group == "" then [] else [group]) ++ [name]
  String.ofList ((Text.join "_" parts).toList.map Char.toUpper)

/-- The settings after the variable of one setting has been looked at. -/
def applyOne (env : Environment) (s : Settings) (setting : String × String) : Settings :=
  match env.lookup (variableName setting.1 setting.2), Settings.slot? setting.1 setting.2 with
  | some value, some slot => (store? s value slot).getD s
  | _, _ => s

/-- The settings with all overrides. -/
def apply (env : Environment) (s : Settings) : Settings := overridable.foldl (applyOne env) s

/-- Sets variables that are not set yet; one without name or with a null character cannot be set. -/
def addMissing (env : Environment) (found : Environment) : Environment :=
  found.foldl (fun env pair =>
    if pair.1 == "" || (pair.1 ++ pair.2).toList.any (·.toNat == 0) || (env.lookup pair.1).isSome then env
    else env ++ [pair]) env

end Environment

end Depends
