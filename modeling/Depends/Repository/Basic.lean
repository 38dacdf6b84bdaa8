import Depends.Declaration.Table
import Depends.Graph.Basic
import Depends.Notice
import Depends.Scope

/-!
What an analysis knows: the scopes open in the current file, the recorded declarations, the type table,
the namespaces that each file imports, the aliases that each file binds, and the graph.
-/
namespace Depends

/-- Changes the value of a key in a list of pairs; a new key comes last. -/
def upsert {β : Type} (key : String) (change : Option β → β) : List (String × β) → List (String × β)
  | [] => [(key, change none)]
  | pair :: pairs =>
    if pair.1 == key then (key, change (some pair.2)) :: pairs else pair :: upsert key change pairs

/-- The aliases of a file with their targets, in the order in which they were first bound. -/
abbrev AliasTable := List (String × List String)

/-- The state that both passes share. `nextSerial` is the serial of the next new declaration. -/
structure Repository where
  file : String := ""
  stack : Stack Frame := {}
  scopeCount : Nat := 0
  locations : List Declaration := []
  types : TypeTable := {}
  usings : List (String × List (List String)) := []
  aliases : List (String × AliasTable) := []
  graph : Graph := {}
  nextSerial : Nat := 0
  journal : List Notice := []
  deriving DecidableEq, Repr

namespace Repository

/-- Notes an event. -/
def note (r : Repository) (notice : Notice) : Repository := { r with journal := r.journal ++ [notice] }

/-- Gives a declaration the next serial. -/
def register (r : Repository) (d : Declaration) : Declaration × Repository :=
  ({ d with serial := r.nextSerial }, { r with nextSerial := r.nextSerial + 1 })

/-- Appends a declaration to the recorded ones. -/
def record (r : Repository) (d : Declaration) : Repository := { r with locations := r.locations ++ [d] }

/-- Fills in the end of the declaration with a serial, wherever it is kept. -/
def close (r : Repository) (serial : Nat) (line scopes : Int) : Repository :=
  let change (d : Declaration) := if d.serial = serial then d.closeAt line scopes else d
  { r with locations := r.locations.map change, types := r.types.map change }

/-- The latest recorded declaration of the current file that is open and has the kind and name of a
frame. -/
def openFor? (r : Repository) (frame : Frame) : Option Declaration :=
  r.locations.reverse.find? fun d =>
    d.endLine == 0 && d.file == r.file && d.kind == frame.kind && d.name == frame.name

/-- Starts a file: no scope is open and none has been opened. -/
def beginFile (r : Repository) (path : String) : Repository :=
  { r with file := path, stack := {}, scopeCount := 0 }

/-- Opens a scope. Without a path the name is its only segment. -/
def pushScope (r : Repository) (kind : DeclKind) (name : String) (path : List String) (line : Int) :
    Frame × Repository :=
  let count := r.scopeCount + 1
  let frame : Frame :=
    { kind, name, path := if path.isEmpty then [name] else path, beginLine := line, beginScopes := count }
  (frame, { r with stack := r.stack.push frame, scopeCount := count })

/-- Closes the innermost scope and fills in the end of the declaration that it belongs to. -/
def popScope (r : Repository) (line : Int) : Except Failure (Frame × Repository) :=
  match r.stack.pop with
  | .error failure => .error failure
  | .ok (frame, stack) =>
    let frame := { frame with endLine := line, endScopes := r.scopeCount }
    let popped := { r with stack := { stack with lastPopped := some frame } }
    match r.openFor? frame with
    | none => .ok (frame, popped)
    | some d => .ok (frame, popped.close d.serial line r.scopeCount)

/-- Closes as many scopes as are given, noting those that are no namespaces. -/
def closeScopes (line : Int) : Nat → Repository → Repository
  | 0, r => r
  | n + 1, r =>
    let r := if r.stack.top?.any (·.kind != .space) then r.note .scopeLeftOpen else r
    match r.popScope line with
    | .error _ => r
    | .ok (_, r) => closeScopes line n r

/-- Ends a file at its last line: every scope still open is closed there. -/
def endFile (r : Repository) (line : Int) : Repository :=
  { closeScopes line r.stack.items.length r with stack := {} }

/-- The names of the enclosing namespaces and types, outermost first. -/
def scopePath (r : Repository) : List String :=
  (r.stack.items.filter Frame.isNaming).flatMap (·.path)

/-- The names of the enclosing namespaces, outermost first. -/
def namespacePath (r : Repository) : List String :=
  (r.stack.items.filter (·.kind == .space)).flatMap (·.path)

/-- The namespaces that a file imports, in order. -/
def usingsOf (r : Repository) (file : String) : List (List String) := (r.usings.lookup file).getD []

/-- Adds an imported namespace unless the file has it. -/
def recordUsing (r : Repository) (file : String) (path : List String) : Repository :=
  if (r.usingsOf file).contains path then r
  else { r with usings := upsert file (fun old => old.getD [] ++ [path]) r.usings }

/-- The aliases of a file. -/
def aliasesOf (r : Repository) (file : String) : AliasTable := (r.aliases.lookup file).getD []

/-- The target of an alias in a file. -/
def alias? (r : Repository) (file name : String) : Option (List String) := (r.aliasesOf file).lookup name

/-- Binds an alias in a file. A later target replaces an earlier one in its place. -/
def recordAlias (r : Repository) (file name : String) (target : List String) : Repository :=
  { r with aliases := upsert file (fun old => upsert name (fun _ => target) (old.getD [])) r.aliases }

/-- The files with aliases, in ascending order. -/
def aliasFiles (r : Repository) : List String := Text.sorted (r.aliases.map (·.1))

/-- The node of a file, which is added when it is new. -/
def ensureNode (r : Repository) (path : String) : Nat × Repository :=
  let (i, graph) := r.graph.addNode path
  (i, { r with graph })

/-- Takes over the declarations, imports and aliases of another repository. Its graph and its open
scopes are not taken over. -/
def merge (r other : Repository) : Repository :=
  let r :=
    { r with
      types := r.types.merge other.types
      locations := r.locations ++ other.locations
      nextSerial := max r.nextSerial other.nextSerial }
  let r := other.usings.foldl (fun r pair => pair.2.foldl (fun r path => r.recordUsing pair.1 path) r) r
  other.aliases.foldl (fun r pair => pair.2.foldl (fun r a => r.recordAlias pair.1 a.1 a.2) r) r

end Repository

end Depends
