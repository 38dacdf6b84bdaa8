import Depends.Toml.Document

/-!
The tables that statements describe. A key is set once, with two exceptions: a table that came into being
only as part of a longer key may be set once more and stays as it is, and a key that is written as a list
gives way to whatever is set later.
-/
namespace Depends.Toml

/-- Sets a field; a new one comes last. -/
def setField (name : String) (item : Item) : Fields → Fields
  | [] => [(name, item)]
  | field :: fields =>
    if field.1 == name then (name, item) :: fields else field :: setField name item fields

/-- The table that a key leads into: of several tables it is the latest. -/
def inner? : Item → Option Fields
  | .table fields => some fields
  | .tables _ latest => some latest
  | _ => none

/-- The item with the table that it leads into replaced. -/
def withInner (fields : Fields) : Item → Item
  | .tables earlier _ => .tables earlier fields
  | _ => .table fields

/-- Changes the table at a path of existing tables. -/
def changeAt (change : Fields → Option Fields) : List String → Fields → Option Fields
  | [], fields => change fields
  | name :: path, fields => do
    let item ← fields.lookup name
    let inner ← changeAt change path (← inner? item)
    return setField name (withInner inner item) fields

/-- The item at a path. -/
def itemAt? : List String → Fields → Option Item
  | [], _ => none
  | [name], fields => fields.lookup name
  | name :: path, fields => ((fields.lookup name).bind inner?).bind (itemAt? path)

/-- A document under construction: its top table, the paths of tables that came into being as part of
longer keys, and the paths that have been written as lists. -/
structure Draft where
  top : Fields := []
  implied : List (List String) := []
  lists : List (List String) := []
  deriving Repr

namespace Draft

/-- Marks a path as implied. -/
def imply (d : Draft) (path : List String) : Draft :=
  if d.implied.contains path then d else { d with implied := path :: d.implied }

/-- Takes the mark of a path away. -/
def settle (d : Draft) (path : List String) : Draft := { d with implied := d.implied.filter (· != path) }

/-- Notes whether a key has been written as a list. A key without name stands for its table. -/
def noteList (d : Draft) (path : List String) (name : String) (isList : Bool) : Draft :=
  let full := if name == "" && !path.isEmpty then path else path ++ [name]
  let others := d.lists.filter (· != full)
  { d with lists := if isList then full :: others else others }

/-- Puts an item into the table at a path. -/
def put? (d : Draft) (path : List String) (name : String) (item : Item) : Option Draft :=
  (changeAt (fun fields => some (setField name item fields)) path d.top).map fun top => { d with top }

/-- Sets a field of the table at a path. A list that is there is replaced, and an implied table is
kept. -/
def set? (d : Draft) (path : List String) (name : String) (item : Item) : Option Draft :=
  let full := path ++ [name]
  if (itemAt? full d.top).isNone then d.put? path name item
  else if d.lists.contains full then (d.settle full).put? path name item
  else if d.implied.contains full then some (d.settle full)
  else none

/-- Makes sure that a path of tables exists; missing ones are implied. -/
def reach? (d : Draft) : List String → List String → Option Draft
  | _, [] => some d
  | path, name :: names =>
    let full := path ++ [name]
    match itemAt? full d.top with
    | some item => if (inner? item).isSome then d.reach? full names else none
    | none => do
      let made ← (d.imply full).put? path name (.table [])
      made.reach? full names

/-- Opens a table. -/
def open? (d : Draft) (key : List String) : Option Draft := do
  let last ← key.getLast?
  let d ← d.reach? [] key.dropLast
  d.set? key.dropLast last (.table [])

/-- Opens one more table of a list. -/
def openAnother? (d : Draft) (key : List String) : Option Draft := do
  let last ← key.getLast?
  let d ← d.reach? [] key.dropLast
  let grow (fields : Fields) : Option Fields :=
    match fields.lookup last with
    | none => some (setField last (.tables [] []) fields)
    | some (.tables earlier latest) => some (setField last (.tables (earlier ++ [.table latest]) []) fields)
    | some _ => none
  let top ← changeAt grow key.dropLast d.top
  return { d with top }

/-- Goes into the tables of a dotted key from a table. A table that is there may be gone into. -/
def extend? (d : Draft) : List String → List String → Option Draft
  | _, [] => some d
  | path, name :: names => do
    let d ← (d.imply (path ++ [name])).open? (path ++ [name])
    d.extend? (path ++ [name]) names

/-- Assigns to a dotted key of the table at a path what is found for it there. -/
def assign? (d : Draft) (path key : List String)
    (find? : Draft → List String → String → Option (Item × Draft)) : Option (Item × Draft) := do
  let last ← key.getLast?
  let table := path ++ key.dropLast
  let d ← d.extend? path key.dropLast
  let (item, d) ← find? d table last
  let d ← d.set? table last item
  return (item, d.noteList table last (item matches .list _))

end Draft

/-- Puts an item at a dotted key of an inline table. -/
def placeAt? (item : Item) : List String → Fields → Option Fields
  | [], _ => none
  | [name], fields => some (setField name item fields)
  | name :: path, fields => do
    let inner ← match fields.lookup name with
      | none => some []
      | some (.table inner) => some inner
      | some _ => none
    let inner ← placeAt? item path inner
    return setField name (.table inner) fields

mutual

/-- The item of an expression at a key of the table at a path. The entries of an inline table are set in
the document as well, in one more table if it is in a list. -/
def item? (d : Draft) (path : List String) (name : String) (inList : Bool) : Expr → Option (Item × Draft)
  | .text value => some (.text value, d)
  | .whole value => some (.whole value, d)
  | .decimal value => some (.decimal value, d)
  | .notFinite => some (.notFinite, d)
  | .truth value => some (.truth value, d)
  | .moment => some (.moment, d)
  | .list items => do
    let (items, d) ← listItems? (d.noteList path name true) path name items
    return (.list items, d)
  | .inline fields => do
    let full := path ++ [name]
    let d := d.imply full
    let d ← if inList then d.openAnother? full else d.open? full
    let (fields, d) ← inlineTable? d full [] fields
    return (.table fields, d)

/-- The items of a list. -/
def listItems? (d : Draft) (path : List String) (name : String) : List Expr → Option (List Item × Draft)
  | [] => some ([], d)
  | expr :: exprs => do
    let (item, d) ← item? d path name true expr
    let (items, d) ← listItems? d path name exprs
    return (item :: items, d)

/-- The fields of an inline table at a path after those found so far. -/
def inlineTable? (d : Draft) (path : List String) (found : Fields) :
    List (List String × Expr) → Option (Fields × Draft)
  | [] => some (found, d)
  | (key, expr) :: fields => do
    let (item, d) ← d.assign? path key fun d path name => item? d path name false expr
    let found ← placeAt? item key found
    inlineTable? d path found fields

end

/-- The document after one more statement, with the path of the table that is open. -/
def Draft.step? : Draft × List String → Statement → Option (Draft × List String)
  | (d, _), .table key => (d.open? key).map fun d => (d.noteList key "" false, key)
  | (d, _), .another key => (d.openAnother? key).map fun d => (d.noteList key "" false, key)
  | (d, path), .assign key expr =>
    (d.assign? path key fun d path name => item? d path name false expr).map fun (_, d) => (d, path)

/-- The top table of a document. -/
def read? (data : List UInt8) : Option Fields := do
  let statements ← parse? data
  let (d, _) ← statements.foldlM Draft.step? ({}, [])
  return d.top

end Depends.Toml
