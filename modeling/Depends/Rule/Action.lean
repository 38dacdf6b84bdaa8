import Depends.Repository.Basic
import Depends.Rule.Basic

/-!
What the rules do to a repository: open and close scopes, declare types, bind aliases, import
namespaces, and resolve references to types of other files.
-/
namespace Depends

/-- A reaction to what a rule hands on. -/
inductive Action where
  | openScope (record : Bool)
  | declareType
  | closeScope
  | saveAlias
  | saveUsing
  | addReference
  deriving DecidableEq, Repr

namespace Action

/-- A part that an action cannot use. -/
def malformed (part : Semi) (text : String) : Failure :=
  ((Failure.ofCode .malformed text).detail "path" part.path).detail "line" (toString part.line)

/-- The kind, the name and the name's segments of a scope. -/
def scopeParts (part : Semi) : Except Failure (DeclKind × String × List String) :=
  match part.tokens with
  | kind :: first :: more => .ok (DeclKind.ofLabel kind, Text.join "." (first :: more), first :: more)
  | _ => .error (malformed part "scope entry needs a kind and a name")

/-- Opens a scope; on request it is recorded too, unless it belongs to a statement. -/
def openScopeOn (record : Bool) (part : Semi) (r : Repository) : Except Failure Unit × Repository :=
  match scopeParts part with
  | .error failure => (.error failure, r)
  | .ok (kind, name, path) =>
    let r :=
      if record ∧ kind ≠ .control then
        let (d, r) := r.register
          { kind, name, file := part.path, scope := r.scopePath, beginLine := part.start,
            beginScopes := r.scopeCount + 1 }
        r.record d
      else r
    (.ok (), (r.pushScope kind name path part.start).2)

/-- Records a type and enters it in the table. A delegate has no body and ends where it begins; every
other type opens a scope. -/
def declareTypeOn (part : Semi) (r : Repository) : Except Failure Unit × Repository :=
  match scopeParts part with
  | .error failure => (.error failure, r)
  | .ok (kind, name, path) =>
    let bodiless := kind = .delegateType
    let (d, r) := r.register
      { kind, name, file := part.path, scope := r.scopePath, beginLine := part.start
        endLine := if bodiless then part.start else 0
        beginScopes := if bodiless then (r.scopeCount : Int) else (r.scopeCount : Int) + 1
        endScopes := if bodiless then (r.scopeCount : Int) else 0 }
    let r := r.record d
    let r := if r.types.hasSite name d then r.note .duplicateType else r
    let r := { r with types := r.types.add name d }
    (.ok (), if bodiless then r else (r.pushScope kind name path part.start).2)

/-- Closes the innermost scope; a brace that closes nothing is noted. -/
def closeScopeOn (part : Semi) (r : Repository) : Repository :=
  match r.popScope part.line with
  | .error _ => r.note .unbalancedClose
  | .ok (_, r) => r

/-- A reference with its aliases replaced by their targets, token by token. -/
def expandAliases (part : Semi) (r : Repository) : List String :=
  part.tokens.flatMap fun token => (r.alias? part.path token).getD [token]

/-- The scopes in which a qualified name is looked up, in order: the enclosing namespace, each imported
one, and none, all with the qualifier. -/
def candidates (file : String) (qualifier : List String) (r : Repository) : List (List String) :=
  (r.namespacePath ++ qualifier) :: (r.usingsOf file).map (· ++ qualifier) ++ [qualifier]

/-- The declaration that a reference means. -/
def resolve? (part : Semi) (r : Repository) : Option Declaration :=
  let reference := expandAliases part r
  match reference.getLast? with
  | none => none
  | some name => r.types.find? name (candidates part.path reference.dropLast r)

/-- Adds an edge to the file that declares the type, when it is another file. -/
def addReferenceOn (part : Semi) (r : Repository) : Repository :=
  match resolve? part r with
  | none => r
  | some d =>
    if d.file = part.path then r
    else
      let (source, r) := r.ensureNode part.path
      let (target, r) := r.ensureNode d.file
      let (added, graph) := r.graph.addEdge source target d.fileName
      let r := { r with graph }
      if added then r.note .dependencyFound else r

/-- Acts on a part. -/
def perform (action : Action) (part : Semi) (r : Repository) : Except Failure Unit × Repository :=
  match action with
  | openScope record => openScopeOn record part r
  | declareType => declareTypeOn part r
  | closeScope => (.ok (), closeScopeOn part r)
  | saveAlias =>
    match part.tokens with
    | name :: first :: more => (.ok (), r.recordAlias part.path name (first :: more))
    | _ => (.error (malformed part "alias needs a name and a target"), r)
  | saveUsing =>
    if part.tokens.isEmpty then (.error (malformed part "using directive without a namespace"), r)
    else (.ok (), r.recordUsing part.path part.tokens)
  | addReference => (.ok (), addReferenceOn part r)

end Action

end Depends
