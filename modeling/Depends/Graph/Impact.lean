import Depends.Failure
import Depends.Graph.Chain

/-!
The files that depend on a file, directly or through other files.
-/
namespace Depends

/-- The files that depend on a target, in ascending order. -/
structure Impact where
  target : String
  direct : List String
  transitive : List String
  deriving DecidableEq, Repr

namespace Graph

/-- The nodes with an edge to a node. -/
def predecessors (g : Graph) (j : Nat) : List Nat :=
  (List.range g.size).filter fun i => g.hasEdge i j

/-- The nodes beyond those seen that lead to the nodes in line, in the order of their discovery. Every node enters the
line once, so the number of nodes is enough fuel. -/
def spread (g : Graph) : Nat → List Nat → List Nat → List Nat
  | 0, _, _ => []
  | _ + 1, [], _ => []
  | fuel + 1, j :: line, seen =>
    let fresh := (g.predecessors j).filter fun i => !seen.contains i
    fresh ++ spread g fuel (line ++ fresh) (seen ++ fresh)

/-- The files that depend on a file of the graph. -/
def impact (g : Graph) (path : String) : Except Failure Impact :=
  match g.find? path with
  | none => .error (.unknownTarget path)
  | some target =>
    let direct := (g.predecessors target).filter (· != target)
    let transitive := g.spread (g.size + 1) direct (target :: direct)
    .ok
      { target := path
        direct := Text.sorted (direct.map g.pathOf)
        transitive := Text.sorted (transitive.map g.pathOf) }

end Graph

end Depends
