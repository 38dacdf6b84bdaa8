import Depends.Declaration.Basic
import Depends.Failure

/-!
The stack of open scopes. A stack remembers the item that was popped last.
-/
namespace Depends

/-- A stack, bottom first. -/
structure Stack (α : Type) where
  items : List α := []
  lastPopped : Option α := none
  deriving DecidableEq, Repr

namespace Stack

variable {α : Type}

/-- Puts an item on top. -/
def push (stack : Stack α) (item : α) : Stack α := { stack with items := stack.items ++ [item] }

/-- The item on top. -/
def top? (stack : Stack α) : Option α := stack.items.getLast?

/-- Takes the item off the top. -/
def pop (stack : Stack α) : Except Failure (α × Stack α) :=
  match stack.items.getLast? with
  | none => .error (.ofCode .scopeUnderflow "pop on empty stack")
  | some item => .ok (item, { items := stack.items.dropLast, lastPopped := some item })

/-- The item at a depth, counted from the bottom. -/
def at? (stack : Stack α) (i : Int) : Except Failure α :=
  let item := if i < 0 then none else stack.items[i.toNat]?
  match item with
  | some item => .ok item
  | none => .error (.ofCode .notFound "stack index out of range")

end Stack

/-- An open scope. `path` has the segments of its name; only a dotted namespace has more than one. -/
structure Frame where
  kind : DeclKind
  name : String
  path : List String
  beginLine : Int
  endLine : Int := 0
  beginScopes : Int
  endScopes : Int := 0
  deriving DecidableEq, Repr

/-- A frame that takes part in the scope of a declaration. -/
def Frame.isNaming (frame : Frame) : Bool := frame.kind == .space || frame.kind.isType

end Depends
