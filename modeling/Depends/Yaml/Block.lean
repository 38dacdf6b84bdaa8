import Depends.Report.Data
import Depends.Yaml.Scalar

/-!
Data as indented YAML. The entries of a record stand four columns apart, those of a list behind their
dashes.
-/
namespace Depends.Yaml

open Depends.Report (Data)

/-- A line break with an indentation. -/
def lineBreak (indent : Nat) : String := "\n" ++ String.ofList (List.replicate indent ' ')

/-- A text with its last line ended; a literal block may have ended it. -/
def ended (s : String) : String := if s.toList.getLast?.any isBreak then s else s ++ "\n"

/-- Texts below each other, all but the first behind an indentation. -/
def stacked (indent : Nat) : List String → String
  | [] => ""
  | [s] => s
  | s :: more => ended s ++ String.ofList (List.replicate indent ' ') ++ stacked indent more

/-- The next multiple of four. -/
def nextIndent (indent : Nat) : Nat := (indent / 4 + 1) * 4

/-- The datum takes lines of its own below its name. -/
def isBlock : Data → Bool
  | .list items => !items.isEmpty
  | .record fields => !fields.isEmpty
  | _ => false

mutual

/-- The text of a datum whose lines after the first have an indentation. -/
def render (indent : Nat) : Data → String
  | .text value => scalar indent value
  | .number value => toString value
  | .moment value => value.text
  | .unset => "[]"
  | .list items => if items.isEmpty then "[]" else stacked indent (renderItems indent items)
  | .record fields =>
    if fields.isEmpty then "\x7b\x7d" else stacked indent (renderFields indent fields)

/-- The items of a list, each behind a dash. -/
def renderItems (indent : Nat) : List Data → List String
  | [] => []
  | item :: items => ("- " ++ render (indent + 2) item) :: renderItems indent items

/-- The fields of a record, each behind its name. -/
def renderFields (indent : Nat) : List (String × Data) → List String
  | [] => []
  | (name, value) :: fields =>
    let inner := nextIndent indent
    (name ++ ":" ++ (if isBlock value then lineBreak inner else " ") ++ render inner value) ::
      renderFields indent fields

end

/-- A datum as a document. -/
def document (data : Data) : String := ended (render 0 data)

end Depends.Yaml
