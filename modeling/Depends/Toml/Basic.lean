import Depends.Text.Fields

/-!
TOML: the expressions and statements of a document, and the tables that it describes.
-/
namespace Depends.Toml

/-- A value as it is written. Times and numbers that are not finite keep no value. -/
inductive Expr where
  | text (value : String)
  | whole (value : Int)
  | decimal (value : Rat)
  | notFinite
  | truth (value : Bool)
  | moment
  | list (items : List Expr)
  | inline (fields : List (List String × Expr))
  deriving Repr

/-- A line of a document: a table header, a header of one more table of a list, or an assignment to a
dotted key. -/
inductive Statement where
  | table (key : List String)
  | another (key : List String)
  | assign (key : List String) (value : Expr)
  deriving Repr

/-- A value of a document. `tables` are the tables of a list of headers, the latest apart. -/
inductive Item where
  | text (value : String)
  | whole (value : Int)
  | decimal (value : Rat)
  | notFinite
  | truth (value : Bool)
  | moment
  | list (items : List Item)
  | table (fields : List (String × Item))
  | tables (earlier : List Item) (latest : List (String × Item))
  deriving Repr

/-- The fields of a table in the order in which they were set. -/
abbrev Fields := List (String × Item)

end Depends.Toml
