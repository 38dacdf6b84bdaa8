import Depends.Files.Tree
import Depends.Settings.Slots
import Depends.Toml.Table

/-!
Settings from a TOML file. Unknown keys are ignored and known ones are found whatever their case; a value
of another type spoils the file.
-/
namespace Depends.Settings

open Depends.Toml

/-- A name without its case. Two letters outside of ASCII are other cases of `s` and `k`. -/
def foldCase (name : String) : String :=
  String.ofList (name.toList.map fun c => if c = 'ſ' then 's' else if c = 'K' then 'k' else c.toLower)

/-- The largest whole number that is taken for a decimal one. -/
def largestExact : Nat := 9007199254740991

/-- A text. -/
def text? : Item → Option String
  | .text value => some value
  | _ => none

/-- Puts a value of a document into a slot. A duration is a text with units or a number of nanoseconds,
and a whole number that is exact will do for a decimal one. -/
def store? (s : Settings) : Slot → Item → Option Settings
  | .text _ set, .text value => some (set value s)
  | .truth _ set, .truth value => some (set value s)
  | .whole _ set, .whole value => some (set value s)
  | .decimal _ set, .decimal value => some (set value s)
  | .decimal _ set, .notFinite => some (set 0 s)
  | .decimal _ set, .whole value => if value.natAbs ≤ largestExact then some (set value s) else none
  | .duration _ set, .text value => (Duration.ofText? value).map fun d => set d s
  | .duration _ set, .whole value => some (set value s)
  | .entries _ set, .list items => (items.mapM text?).map fun texts => set (some texts) s
  | _, _ => none

/-- Takes over a field of a group. -/
def takeField? (group : String) (s : Settings) (field : String × Item) : Option Settings :=
  match slots.find? fun t => t.group == group && t.name == foldCase field.1 with
  | none => some s
  | some setting => s.store? setting.slot field.2

/-- Takes over a field of a document: a setting without group, or the fields of a group. -/
def take? (s : Settings) (field : String × Item) : Option Settings :=
  let group := foldCase field.1
  if group != "" && slots.any (·.group == group) then
    match field.2 with
    | .table inner => inner.foldlM (takeField? group) s
    | _ => none
  else takeField? "" s field

/-- The settings of a document as they are given. -/
def ofFields? (fields : Fields) : Option Settings := fields.foldlM take? {}

/-- Settings from the file at a path, completed, normalized and checked. -/
def load (files : Files) (path : String) : Except Failure Settings :=
  match files.read path with
  | .error failure => .error ((failure.wrap .notFound "read config").detail "path" path)
  | .ok data =>
    match (Toml.read? data).bind ofFields? with
    | none => .error (.ofCode .validation "decode config")
    | some given =>
      let settings := given.withDefaults.normalized
      match settings.fault? with
      | some failure => .error failure
      | none => .ok settings

end Depends.Settings
