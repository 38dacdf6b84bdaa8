import Depends.Path

/-!
Declarations: what a file declares, where it stands and how far it reaches.
-/
namespace Depends

/-- What is declared, or what opens a scope. -/
inductive DeclKind where
  | space
  | classType
  | structType
  | interfaceType
  | enumType
  | delegateType
  | function
  | control
  | other (label : String)
  deriving DecidableEq, Repr

namespace DeclKind

/-- The label of a kind. -/
def label : DeclKind → String
  | space => "namespace"
  | classType => "class"
  | structType => "struct"
  | interfaceType => "interface"
  | enumType => "enum"
  | delegateType => "delegate"
  | function => "function"
  | control => "control"
  | other label => label

/-- The kind with a given label. -/
def ofLabel (label : String) : DeclKind :=
  match [space, classType, structType, interfaceType, enumType, delegateType, function, control].find?
      (fun kind => kind.label == label) with
  | some kind => kind
  | none => .other label

/-- Kinds of types that other files can depend on. -/
def isType : DeclKind → Bool
  | classType | structType | interfaceType | enumType | delegateType => true
  | _ => false

end DeclKind

/-- One declaration. `scope` lists the enclosing namespace and type names, outermost first. An end line
of 0 means that the declaration is still open. Copies of one declaration share its `serial`. -/
structure Declaration where
  serial : Nat := 0
  kind : DeclKind
  name : String
  file : String
  scope : List String := []
  beginLine : Int := 0
  endLine : Int := 0
  beginScopes : Int := 0
  endScopes : Int := 0
  deriving DecidableEq, Repr

namespace Declaration

/-- The base name of the declaring file. -/
def fileName (d : Declaration) : String := Path.base d.file

/-- The enclosing scopes with dots between them. -/
def spaceName (d : Declaration) : String := Text.join "." d.scope

/-- The name with its enclosing scopes. -/
def qualifiedName (d : Declaration) : String :=
  if d.scope.isEmpty then d.name else d.spaceName ++ "." ++ d.name

/-- Declarations of one name in one scope of one file. -/
def sameSite (d e : Declaration) : Bool := d.file == e.file && d.scope == e.scope

/-- The declaration with its end filled in. -/
def closeAt (d : Declaration) (line scopes : Int) : Declaration :=
  { d with endLine := line, endScopes := scopes }

end Declaration

end Depends
