import Depends.Graph.Basic
import Mathlib.Logic.Relation

/-!
Graphs as they grow: nodes and edges are added one after the other, in any order and number. In a graph
that grew this way every edge leads to a node (`grown_closed`). A node reaches what edges lead to from
it, in any number of steps.
-/
namespace Depends.Graph

/-- One addition to a graph. -/
inductive Addition where
  | node (path : String)
  | edge (source target : Int) (label : String)
  deriving DecidableEq, Repr

/-- The graph after an addition. -/
def extend (g : Graph) : Addition → Graph
  | .node path => (g.addNode path).2
  | .edge source target label => (g.addEdge source target label).2

/-- The graph that additions make of an empty one. -/
def grown (additions : List Addition) : Graph := additions.foldl extend {}

/-- Every edge leads to a node. -/
def Closed (g : Graph) : Prop := ∀ v, ∀ w ∈ g.successors v, w < g.size

/-- Edges lead from one node to another. -/
def Reaches (g : Graph) : Nat → Nat → Prop := Relation.ReflTransGen fun v w => w ∈ g.successors v

/-- Two nodes reach each other. -/
def Mutual (g : Graph) (v w : Nat) : Prop := g.Reaches v w ∧ g.Reaches w v

theorem mem_successors {g : Graph} {v w : Nat} :
    w ∈ g.successors v ↔ ∃ node, g.nodes[v]? = some node ∧ ∃ edge ∈ node.edges, edge.target = w := by
  unfold successors edges
  cases g.nodes[v]? <;> simp

theorem Reaches.single {g : Graph} {v w : Nat} (edge : w ∈ g.successors v) : g.Reaches v w :=
  Relation.ReflTransGen.single edge

theorem Mutual.symm {g : Graph} {v w : Nat} (both : g.Mutual v w) : g.Mutual w v := ⟨both.2,both.1⟩

theorem Mutual.trans {g : Graph} {u v w : Nat} (left : g.Mutual u v) (right : g.Mutual v w) :
    g.Mutual u w :=
  ⟨left.1.trans right.1,right.2.trans left.2⟩

/-- What is closed under edges is closed under reaching. -/
theorem Reaches.mem_of_closed {g : Graph} {nodes : List Nat}
    (closed : ∀ v ∈ nodes, ∀ w ∈ g.successors v, w ∈ nodes) {v w : Nat} (path : g.Reaches v w)
    (member : v ∈ nodes) : w ∈ nodes := by
  induction path with
  | refl => exact member
  | tail _ edge ih => exact closed _ ih _ edge

theorem node?_eq_some {g : Graph} {i : Int} {v : Nat} (found : g.node? i = some v) : v < g.size := by
  unfold node? at found
  split at found
  · have := Option.some.inj found
    omega
  · cases found

theorem closed_addNode {g : Graph} (closed : g.Closed) (path : String) : (g.addNode path).2.Closed := by
  unfold addNode
  split
  · exact closed
  · intro v w edge
    obtain ⟨node,found,e,member,target⟩ := mem_successors.mp edge
    simp only [size,List.length_append,List.length_cons,List.length_nil]
    rcases Nat.lt_or_ge v g.nodes.length with inside | outside
    · rw [List.getElem?_append_left inside] at found
      have bound := closed v w (mem_successors.mpr ⟨node,found,e,member,target⟩)
      simp only [size] at bound
      omega
    · -- The new node has no edges.
      rw [List.getElem?_append_right outside] at found
      have fresh := List.mem_singleton.mp (List.mem_of_getElem? found)
      simp [fresh] at member

theorem closed_addEdge {g : Graph} (closed : g.Closed) (source target : Int) (label : String) :
    (g.addEdge source target label).2.Closed := by
  unfold addEdge
  split
  · rename_i i j _ targetFound
    split
    · exact closed
    · intro v w edge
      obtain ⟨node,found,e,member,rfl⟩ := mem_successors.mp edge
      simp only [size,List.length_modify]
      simp only [List.getElem?_modify] at found
      obtain ⟨old,oldFound,rfl⟩ := Option.map_eq_some_iff.mp found
      split at member
      · rcases List.mem_append.mp member with earlier | last
        · exact closed v _ (mem_successors.mpr ⟨old,oldFound,e,earlier,rfl⟩)
        · rw [List.mem_singleton.mp last]
          exact node?_eq_some targetFound
      · exact closed v _ (mem_successors.mpr ⟨old,oldFound,e,member,rfl⟩)
  · exact closed

theorem closed_extend {g : Graph} (closed : g.Closed) (addition : Addition) : (g.extend addition).Closed := by
  cases addition with
  | node path => exact closed_addNode closed path
  | edge source target label => exact closed_addEdge closed source target label

@[simp] theorem nodes_empty : ({} : Graph).nodes = [] := rfl

theorem closed_empty : ({} : Graph).Closed := by
  intro v w edge
  simp [successors,edges] at edge

/-- In a grown graph every edge leads to a node. -/
theorem grown_closed (additions : List Addition) : (grown additions).Closed := by
  have run : ∀ (more : List Addition) (g : Graph), g.Closed → (more.foldl extend g).Closed := by
    intro more
    induction more with
    | nil => intro g closed; exact closed
    | cons addition more ih => intro g closed; exact ih _ (closed_extend closed addition)
  exact run additions {} closed_empty

end Depends.Graph
