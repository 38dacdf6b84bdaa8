import Depends.Text.Fields
import Depends.Text.Quoted
import Depends.Time.Stamp

/-!
Structured data with named fields in a fixed order, and its indented JSON text.
-/
namespace Depends.Report

/-- A datum. `unset` is a list that was never begun. -/
inductive Data where
  | text (value : String)
  | number (value : Int)
  | moment (value : Stamp)
  | unset
  | list (items : List Data)
  | record (fields : List (String × Data))
  deriving Repr

namespace Data

/-- A list of texts. -/
def texts (items : List String) : Data := list (items.map text)

/-- A character inside a JSON text. The marks of markup and the two line separators are escaped too. -/
def jsonChar (c : Char) : List Char :=
  match c with
  | '"' => ['\\', '"']
  | '\\' => ['\\', '\\']
  | '\n' => ['\\', 'n']
  | '\r' => ['\\', 'r']
  | '\t' => ['\\', 't']
  | c =>
    let code := c.toNat
    if code = 0x08 then ['\\', 'b']
    else if code = 0x0c then ['\\', 'f']
    else if code < 0x20 || c = '<' || c = '>' || c = '&' || code = 0x2028 || code = 0x2029 then
      ['\\', 'u'] ++ Text.hex 4 code
    else [c]

/-- A JSON text in quotes. -/
def jsonText (s : String) : String :=
  String.ofList ('"' :: s.toList.flatMap jsonChar ++ ['"'])

/-- A line break with the indentation of a depth, two blanks each. -/
def jsonBreak (depth : Nat) : String := "\n" ++ String.ofList (List.replicate (2 * depth) ' ')

/-- Parts between brackets, each on a line of its own. -/
def jsonBlock (opening closing : String) (depth : Nat) (parts : List String) : String :=
  if parts.isEmpty then opening ++ closing
  else
    opening ++ jsonBreak (depth + 1) ++ Text.join ("," ++ jsonBreak (depth + 1)) parts ++
      jsonBreak depth ++ closing

mutual

/-- The JSON text of a datum at a depth. -/
def jsonAt (depth : Nat) : Data → String
  | text value => jsonText value
  | number value => toString value
  | moment value => jsonText value.text
  | unset => "null"
  | list items => jsonBlock "[" "]" depth (jsonItems (depth + 1) items)
  | record fields => jsonBlock "\x7b" "\x7d" depth (jsonFields (depth + 1) fields)

/-- The JSON texts of the items of a list. -/
def jsonItems (depth : Nat) : List Data → List String
  | [] => []
  | item :: items => jsonAt depth item :: jsonItems depth items

/-- The JSON texts of the fields of a record. -/
def jsonFields (depth : Nat) : List (String × Data) → List String
  | [] => []
  | (name, value) :: fields => (jsonText name ++ ": " ++ jsonAt depth value) :: jsonFields depth fields

end

/-- The JSON text of a datum. -/
def json (data : Data) : String := jsonAt 0 data

end Data

end Depends.Report
