import Depends.Graph.Basic

/-!
Strong components by one depth-first search. Nodes get numbers in the order of their discovery; the
nodes whose component is not complete stand on a stack; a node that reaches no node of the stack with a
smaller number completes a component, which is what stands on the stack down to it. Components come
out in reverse topological order, the nodes of each from the top of the stack down.
-/
namespace Depends

/-- The state of the search: the nodes in the order of discovery, the stack, top first, and the
complete components. -/
structure ComponentSearch where
  found : List Nat := []
  stack : List Nat := []
  components : List (List Nat) := []
  deriving DecidableEq, Repr

namespace ComponentSearch

/-- The number of a discovered node. -/
def number? (s : ComponentSearch) (v : Nat) : Option Nat := s.found.findIdx? (· == v)

/-- Discovers a node. -/
def discover (s : ComponentSearch) (v : Nat) : ComponentSearch :=
  { s with found := s.found ++ [v], stack := v :: s.stack }

/-- Completes the component that ends with a node. -/
def complete (s : ComponentSearch) (v : Nat) : ComponentSearch :=
  { s with
    components := s.components ++ [s.stack.takeWhile (· != v) ++ [v]]
    stack := (s.stack.dropWhile (· != v)).drop 1 }

end ComponentSearch

namespace Graph

/-- Searches from an undiscovered node. The result is the smallest number on the stack that the search
met. Every recursive call discovers a node, so the number of nodes is enough fuel. -/
def visit (g : Graph) : Nat → Nat → ComponentSearch → Nat × ComponentSearch
  | 0, _, s => (0, s)
  | fuel + 1, v, s =>
    let own := s.found.length
    let follow (state : Nat × ComponentSearch) (w : Nat) : Nat × ComponentSearch :=
      match state.2.number? w with
      | none =>
        let (low, s) := visit g fuel w state.2
        (min state.1 low, s)
      | some number => if state.2.stack.contains w then (min state.1 number, state.2) else state
    let (low, s) := (g.successors v).foldl follow (own, s.discover v)
    (low, if low = own then s.complete v else s)

/-- Searches from a node unless it is discovered. -/
def visitRoot (g : Graph) (s : ComponentSearch) (v : Nat) : ComponentSearch :=
  match s.number? v with
  | none => (g.visit g.size v s).2
  | some _ => s

/-- The strong components. Roots are taken in the order of the nodes, edges in their own order. -/
def components (g : Graph) : List (List Nat) :=
  ((List.range g.size).foldl g.visitRoot {}).components

/-- A component with a cycle: several nodes, or one with an edge to itself. -/
def isCyclic (g : Graph) (component : List Nat) : Bool :=
  1 < component.length || component.head?.any g.hasLoop

/-- The components with a cycle. -/
def cycles (g : Graph) : List (List Nat) := g.components.filter g.isCyclic

end Graph

end Depends
