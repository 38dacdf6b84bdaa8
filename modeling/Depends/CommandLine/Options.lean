import Depends.Settings.Basic
import Depends.Text.Whole

/-!
The options of the command line. A flag begins with one or two dashes; a flag with a value takes it after
an equals sign or as the next argument, and a switch takes one after an equals sign only. The first
argument that is no flag, or a pair of dashes, ends the flags.
-/
namespace Depends.CommandLine

/-- The options that were asked for. `given` names the flags that appeared. -/
structure Options where
  config : String := "./depscan.toml"
  dependencies : Bool := true
  components : Bool := true
  recursive : Bool := false
  types : Bool := false
  aliases : Bool := false
  metrics : Bool := false
  watch : Bool := false
  chain : Bool := false
  impact : String := ""
  history : Bool := false
  since : String := ""
  format : String := ""
  output : String := ""
  logFile : String := ""
  workers : Int := 0
  verbose : Bool := false
  version : Bool := false
  arguments : List String := []
  given : List String := []
  deriving DecidableEq, Repr

/-- What a flag sets. -/
inductive Flag where
  | switch (set : Bool → Options → Options)
  | text (set : String → Options → Options)
  | number (set : Int → Options → Options)

/-- The flags by name. -/
def flags : List (String × Flag) :=
  [("config", .text fun v o => { o with config := v }),
    ("deps", .switch fun v o => { o with dependencies := v }),
    ("scc", .switch fun v o => { o with components := v }),
    ("recursive", .switch fun v o => { o with recursive := v }),
    ("types", .switch fun v o => { o with types := v }),
    ("aliases", .switch fun v o => { o with aliases := v }),
    ("metrics", .switch fun v o => { o with metrics := v }),
    ("watch", .switch fun v o => { o with watch := v }),
    ("chain", .switch fun v o => { o with chain := v }),
    ("impact", .text fun v o => { o with impact := v }),
    ("history", .switch fun v o => { o with history := v }),
    ("since", .text fun v o => { o with since := v }),
    ("format", .text fun v o => { o with format := v }),
    ("output", .text fun v o => { o with output := v }),
    ("log-file", .text fun v o => { o with logFile := v }),
    ("workers", .number fun v o => { o with workers := v }),
    ("verbose", .switch fun v o => { o with verbose := v }),
    ("version", .switch fun v o => { o with version := v })]

/-- Why the arguments cannot be read. -/
inductive FlagFault where
  | badSyntax (argument : String)
  | unknown (name : String)
  | helpWanted
  | badSwitch (name value : String)
  | badNumber (name value : String) (fault : Text.WholeFault)
  | valueMissing (name : String)
  deriving DecidableEq, Repr

namespace FlagFault

/-- The wording of a fault. -/
def message : FlagFault → String
  | badSyntax argument => "bad flag syntax: " ++ argument
  | unknown name => "flag provided but not defined: -" ++ name
  | helpWanted => "flag: help requested"
  | badSwitch name value => "invalid boolean value " ++ Text.quoted value ++ " for -" ++ name ++ ": parse error"
  | badNumber name value fault =>
    "invalid value " ++ Text.quoted value ++ " for flag -" ++ name ++ ": " ++
      match fault with
      | .malformed => "parse error"
      | .outOfRange => "value out of range"
  | valueMissing name => "flag needs an argument: -" ++ name

/-- The first line that is printed for a fault; a request for help goes straight to the usage. -/
def headline : FlagFault → String
  | helpWanted => "Usage of depscan:"
  | fault => (Text.split '\n' fault.message).headD ""

end FlagFault

/-- A truth value in one of its accepted spellings. -/
def truth? (value : String) : Option Bool :=
  if ["1", "t", "T", "TRUE", "true", "True"].contains value then some true
  else if ["0", "f", "F", "FALSE", "false", "False"].contains value then some false
  else none

/-- The name of a flag and its value after an equals sign, which is never the first character. -/
def cutValue (body : String) : String × Option String :=
  match body.toList with
  | [] => ("", none)
  | first :: rest =>
    let name := rest.takeWhile (· != '=')
    match rest.drop name.length with
    | [] => (body, none)
    | _ :: value => (String.ofList (first :: name), some (String.ofList value))

/-- Sets a flag from its text; the value of a switch may be missing. -/
def setFlag (name : String) (flag : Flag) (value : String) (o : Options) : Except FlagFault Options :=
  let o := if o.given.contains name then o else { o with given := o.given ++ [name] }
  match flag with
  | .switch set =>
    match truth? value with
    | some b => .ok (set b o)
    | none => .error (.badSwitch name value)
  | .text set => .ok (set value o)
  | .number set =>
    match Text.Whole.ofText value with
    | .ok n => .ok (set n o)
    | .error fault => .error (.badNumber name value fault)

/-- The body of an argument that is a flag: what follows its dashes. -/
def flagBody? (argument : String) : Option String :=
  match argument.toList with
  | '-' :: '-' :: rest => some (String.ofList rest)
  | '-' :: c :: rest => some (String.ofList (c :: rest))
  | _ => none

/-- The flag in a body, with its name and the value that it brings along. -/
def flagOf (argument body : String) : Except FlagFault (String × Flag × Option String) :=
  if body.toList.head?.all fun c => c == '-' || c == '=' then .error (.badSyntax argument)
  else
    let (name, value) := cutValue body
    match flags.lookup name with
    | some flag => .ok (name, flag, value)
    | none => if name == "help" || name == "h" then .error .helpWanted else .error (.unknown name)

/-- Reads arguments into options. -/
def readArguments : List String → Options → Except FlagFault Options
  | [], o => .ok o
  | argument :: rest, o =>
    if argument == "--" then .ok { o with arguments := rest }
    else
      match flagBody? argument with
      | none => .ok { o with arguments := argument :: rest }
      | some body =>
        match flagOf argument body with
        | .error fault => .error fault
        | .ok (name, .switch set, value) => do
          readArguments rest (← setFlag name (.switch set) (value.getD "true") o)
        | .ok (name, flag, some value) => do readArguments rest (← setFlag name flag value o)
        | .ok (name, flag, none) =>
          match rest with
          | [] => .error (.valueMissing name)
          | value :: rest => do readArguments rest (← setFlag name flag value o)

/-- The options of a list of arguments. -/
def Options.parse (arguments : List String) : Except FlagFault Options := readArguments arguments {}

end Depends.CommandLine
