import Depends.Graph.Basic

/-!
The shortest chain of edges between two files, by breadth-first search. A node is discovered once, and the node that it
was discovered from is noted; from the goal these notes lead back to the start.
-/
namespace Depends

/-- The state of a search for a chain: the nodes in line to be left, first come first, the discovered nodes, what each of
them but the start was discovered from, and whether the goal is one of them. -/
structure ChainSearch where
  line : List Nat
  seen : List Nat
  origins : List (Nat × Nat) := []
  reached : Bool := false
  deriving DecidableEq, Repr

namespace ChainSearch

/-- The search before it leaves its start. -/
def start (source : Nat) : ChainSearch := { line := [source], seen := [source] }

/-- Follows an edge. What it discovers stands in line from then on, unless it is the goal, with which the search is
over. -/
def follow (goal v : Nat) (s : ChainSearch) (w : Nat) : ChainSearch :=
  if s.reached || s.seen.contains w then s
  else
    { line := if w = goal then s.line else s.line ++ [w]
      seen := s.seen ++ [w]
      origins := (w, v) :: s.origins
      reached := w == goal }

/-- Leaves the first node in line over all its edges, in their order. -/
def advance (g : Graph) (goal : Nat) (s : ChainSearch) : ChainSearch :=
  match s.reached, s.line with
  | false, v :: line => (g.successors v).foldl (follow goal v) { s with line }
  | _, _ => s

/-- Goes back from a node over what each was discovered from until it meets the start, and lists the nodes on this way
from the start on. -/
def wayTo? (s : ChainSearch) (source : Nat) : Nat → Nat → Option (List Nat)
  | 0, _ => none
  | fuel + 1, v =>
    if v = source then some [source]
    else do
      let before ← s.wayTo? source fuel (← s.origins.lookup v)
      return before ++ [v]

end ChainSearch

namespace Graph

/-- The search for a goal. Each round takes a node from the line, which no node enters twice, so the number of nodes is
enough. -/
def search (g : Graph) (source goal : Nat) : ChainSearch :=
  Nat.repeat (ChainSearch.advance g goal) g.size (.start source)

/-- The nodes of a shortest chain between two nodes. -/
def chainNodes? (g : Graph) (source target : Nat) : Option (List Nat) :=
  if source = target then some [source]
  else
    let s := g.search source target
    if s.reached then s.wayTo? source g.size target else none

/-- The path of a node. -/
def pathOf (g : Graph) (i : Nat) : String := (g.nodes[i]?.map (·.path)).getD ""

/-- The paths of a shortest chain between two files of the graph. -/
def chain? (g : Graph) (source target : String) : Option (List String) := do
  let i ← g.find? source
  let j ← g.find? target
  let nodes ← g.chainNodes? i j
  return nodes.map g.pathOf

end Graph

end Depends
