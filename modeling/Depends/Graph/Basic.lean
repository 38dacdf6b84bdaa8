import Depends.Path

/-!
The graph of files. Nodes are numbered in the order in which they were added, and an index has the number of each path;
the index agrees with the nodes. An edge names the node that it leads to and carries a label. A node has at most one edge
to each node, and the first one stays.
-/
namespace Depends

/-- An edge to a node. -/
structure Edge where
  target : Nat
  label : String
  deriving DecidableEq, Repr

/-- A file with the files it depends on. -/
structure GraphNode where
  path : String
  edges : List Edge := []
  deriving DecidableEq, Repr

/-- The base name of a file. -/
def GraphNode.name (node : GraphNode) : String := Path.base node.path

/-- Files by number, the numbers by path, and the number of edges between files. -/
structure Graph where
  nodes : List GraphNode
  index : List (String × Nat)
  edgeCount : Nat
  indexed : index = (nodes.map (·.path)).zipIdx
  deriving DecidableEq, Repr

namespace Graph

/-- No files. -/
instance : EmptyCollection Graph where
  emptyCollection := ⟨[], [], 0, rfl⟩

/-- The number of nodes. -/
def size (g : Graph) : Nat := g.nodes.length

/-- The number of the node for a path. -/
def find? (g : Graph) (path : String) : Option Nat := g.index.lookup path

/-- The number of the node for a path, which is added when it is new. -/
def addNode (g : Graph) (path : String) : Nat × Graph :=
  match g.find? path with
  | some i => (i, g)
  | none =>
    (g.size,
      { nodes := g.nodes ++ [{ path }]
        index := g.index ++ [(path, g.size)]
        edgeCount := g.edgeCount
        indexed := by simp [g.indexed, size, List.zipIdx_append] })

/-- The edges of a node; a number outside the graph has none. -/
def edges (g : Graph) (i : Nat) : List Edge := (g.nodes[i]?.map (·.edges)).getD []

/-- The nodes that a node leads to. -/
def successors (g : Graph) (i : Nat) : List Nat := (g.edges i).map (·.target)

/-- There is an edge from one node to another. -/
def hasEdge (g : Graph) (i j : Nat) : Bool := (g.successors i).contains j

/-- The number as that of a node. -/
def node? (g : Graph) (i : Int) : Option Nat :=
  if 0 ≤ i ∧ i < g.size then some i.toNat else none

/-- Edges that are added to a node leave its path. -/
theorem map_path_modify (nodes : List GraphNode) (i : Nat) (edge : Edge) :
    (nodes.modify i fun node => { node with edges := node.edges ++ [edge] }).map (·.path) = nodes.map (·.path) := by
  refine List.ext_getElem? fun v => ?_
  simp only [List.getElem?_map, List.getElem?_modify]
  cases nodes[v]? with
  | none => rfl
  | some node =>
    simp only [Option.map_eq_map, Option.map_some]
    split <;> rfl

/-- Adds an edge between two nodes unless there is one; says whether it was added. -/
def addEdge (g : Graph) (source target : Int) (label : String) : Bool × Graph :=
  match g.node? source, g.node? target with
  | some i, some j =>
    if g.hasEdge i j then (false, g)
    else
      (true,
        { nodes := g.nodes.modify i fun node => { node with edges := node.edges ++ [⟨j, label⟩] }
          index := g.index
          edgeCount := g.edgeCount + 1
          indexed := by rw [map_path_modify, g.indexed] })
  | _, _ => (false, g)

/-- The base names of the nodes among the given numbers. -/
def names (g : Graph) (numbers : List Int) : List String :=
  numbers.filterMap fun i => (g.node? i).bind fun i => g.nodes[i]?.map (·.name)

/-- The node has an edge to itself. -/
def hasLoop (g : Graph) (i : Nat) : Bool := g.hasEdge i i

end Graph

end Depends
