import Depends.Proofs.Graph.Linking
import Depends.Proofs.Text.Distinct
import Mathlib.Algebra.BigOperators.Group.List.Basic
import Mathlib.Algebra.Ring.Nat
import Mathlib.Data.List.Induction

/-!
What holds of a graph however it grew: edges lead to nodes, every file has one node, two nodes have at most one edge,
and the counter counts the edges (`grown_proper`). The nodes come in the order in which their files were first added,
and an edge has the label with which it was first accepted (`grown_representation`).
-/
namespace Depends.Graph

variable {g : Graph}

/-- What every addition keeps. -/
structure Proper (g : Graph) : Prop where
  closed : g.Closed
  paths : (g.nodes.map (·.path)).Nodup
  single : ∀ v, (g.successors v).Nodup
  counted : g.edgeCount = (g.nodes.map (·.edges.length)).sum

theorem Proper.empty : ({} : Graph).Proper := ⟨closed_empty,.nil,fun _ => .nil,rfl⟩

theorem Proper.addNode (proper : g.Proper) (path : String) : (g.addNode path).2.Proper := by
  refine ⟨closed_addNode proper.closed path,nodup_paths_addNode proper.paths path,?_,?_⟩
  · intro v
    rw [successors_addNode]
    exact proper.single v
  · unfold Graph.addNode
    split
    · exact proper.counted
    · simp [proper.counted]

theorem node?_eq_some_iff {number : Int} {v : Nat} : g.node? number = some v ↔ number = v ∧ v < g.size := by
  unfold node?
  split
  · rw [Option.some.injEq]
    omega
  · rw [iff_comm]
    refine ⟨fun node => ?_,fun none => nomatch none⟩
    omega

/-- An edge is added between two nodes, or nothing is. -/
theorem addEdge_cases (g : Graph) (source target : Int) (label : String) :
    (g.addEdge source target label).2 = g ∨
      ∃ i j : Nat, source = i ∧ target = j ∧ i < g.size ∧ j < g.size ∧
        (g.addEdge source target label).2.nodes =
            (g.nodes.modify i fun node => { node with edges := node.edges ++ [⟨j,label⟩] }) ∧
          (g.addEdge source target label).2.edgeCount = g.edgeCount + 1 := by
  unfold addEdge
  split
  · rename_i i j origin goal
    rw [node?_eq_some_iff] at origin goal
    split
    · exact .inl rfl
    · exact .inr ⟨i,j,origin.1,goal.1,origin.2,goal.2,rfl,rfl⟩
  · exact .inl rfl

/-- An edge is accepted exactly between two nodes that have none yet. -/
theorem addEdge_accepts_iff (g : Graph) (source target : Int) (label : String) :
    (g.addEdge source target label).1 = true ↔
      ∃ i j : Nat, source = i ∧ target = j ∧ i < g.size ∧ j < g.size ∧ j ∉ g.successors i := by
  constructor
  · intro accepted
    unfold addEdge at accepted
    split at accepted
    · rename_i i j origin goal
      rw [node?_eq_some_iff] at origin goal
      split at accepted
      · cases accepted
      · rename_i absent
        exact ⟨i,j,origin.1,goal.1,origin.2,goal.2,by simpa [hasEdge] using absent⟩
    · cases accepted
  · rintro ⟨i,j,rfl,rfl,inside,goal,absent⟩
    simp [addEdge,node?_natCast inside,node?_natCast goal,hasEdge,absent]

theorem Proper.addEdge (proper : g.Proper) (source target : Int) (label : String) :
    (g.addEdge source target label).2.Proper := by
  rcases addEdge_cases g source target label with same | ⟨i,j,rfl,rfl,inside,goal,nodes,count⟩
  · rwa [same]
  refine ⟨closed_addEdge proper.closed _ _ _,paths_addEdge g _ _ _ ▸ proper.paths,fun v => ?_,?_⟩
  · exact nodup_successors_addEdge inside goal label (proper.single v)
  · rw [nodes,count]
    simp only [size] at inside
    have split : g.nodes = g.nodes.take i ++ g.nodes[i] :: g.nodes.drop (i + 1) := by simp
    have total := proper.counted
    rw [split] at total
    rw [List.modify_eq_take_cons_drop inside]
    simp only [List.map_append,List.map_cons,List.sum_append,List.sum_cons,List.length_append,
      List.length_singleton] at total ⊢
    omega

theorem Proper.extend (proper : g.Proper) (addition : Addition) : (g.extend addition).Proper := by
  cases addition with
  | node path => exact proper.addNode path
  | edge source target label => exact proper.addEdge source target label

theorem grown_proper (additions : List Addition) : (grown additions).Proper :=
  List.foldlRecOn additions extend Proper.empty fun _ proper addition _ => proper.extend addition

/-! ### Graphs that grew by additions -/

theorem grown_snoc (additions : List Addition) (last : Addition) :
    grown (additions ++ [last]) = (grown additions).extend last := by
  rw [grown,grown,List.foldl_append,List.foldl_cons,List.foldl_nil]

/-- Additions make the graph of an empty one. -/
def Grown (g : Graph) : Prop := ∃ additions : List Addition, g = grown additions

theorem Grown.empty : ({} : Graph).Grown := ⟨[],rfl⟩

theorem Grown.extend (grown : g.Grown) (addition : Addition) : (g.extend addition).Grown := by
  obtain ⟨additions,rfl⟩ := grown
  exact ⟨additions ++ [addition],(grown_snoc additions addition).symm⟩

theorem Grown.addNode (grown : g.Grown) (path : String) : (g.addNode path).2.Grown := grown.extend (.node path)

theorem Grown.addEdge (grown : g.Grown) (source target : Int) (label : String) :
    (g.addEdge source target label).2.Grown :=
  grown.extend (.edge source target label)

theorem Grown.proper (grown : g.Grown) : g.Proper := by
  obtain ⟨additions,rfl⟩ := grown
  exact grown_proper additions

/-! ### Nodes and the additions behind them -/

/-- The file that an addition makes a node of. -/
def Addition.path? : Addition → Option String
  | .node path => some path
  | .edge .. => none

/-- A node is added unless it is there. -/
theorem paths_addNode {seen : List String} (known : g.nodes.map (·.path) = seen.eraseDups) (path : String) :
    (g.addNode path).2.nodes.map (·.path) = (seen ++ [path]).eraseDups := by
  have present : (g.find? path).isSome ↔ path ∈ seen := by
    rw [find?_isSome_iff,known,List.mem_eraseDups]
  rw [eraseDups_snoc,← known,addNode]
  cases found : g.find? path with
  | some i => rw [if_pos (present.mp (by simp [found]))]
  | none =>
    rw [if_neg fun member => by simpa [found] using present.mpr member]
    simp

theorem grown_paths (additions : List Addition) :
    (grown additions).nodes.map (·.path) = (additions.filterMap Addition.path?).eraseDups := by
  induction additions using List.reverseRecOn with
  | nil => rfl
  | append_singleton additions last ih =>
    rw [grown_snoc,List.filterMap_append]
    cases last with
    | node path => exact paths_addNode ih path
    | edge source target label =>
      have none : [Addition.edge source target label].filterMap Addition.path? = [] := rfl
      rw [none,List.append_nil]
      exact (paths_addEdge (grown additions) source target label).trans ih

theorem Proper.find?_eq_some_iff (proper : g.Proper) {path : String} {i : Nat} :
    g.find? path = some i ↔ g.pathAt? i = some path :=
  ⟨pathAt?_of_find?,find?_of_pathAt? proper.paths⟩

/-! ### Edges and the additions behind them -/

/-- Among the additions of an edge between two nodes, the first one that was accepted had the label. -/
def FirstAccepted (additions : List Addition) (i j : Nat) (label : String) : Prop :=
  ∃ before after, additions = before ++ .edge i j label :: after ∧ ((grown before).addEdge i j label).1 = true ∧
    ∀ earlier between other, before = earlier ++ .edge i j other :: between →
      ((grown earlier).addEdge i j other).1 = false

theorem edges_extend_mono {v : Nat} {edge : Edge} (member : edge ∈ g.edges v) (addition : Addition) :
    edge ∈ (g.extend addition).edges v := by
  cases addition with
  | node path =>
    rw [extend,edges_addNode]
    exact member
  | edge source target label =>
    rw [extend]
    rcases addEdge_cases g source target label with same | ⟨i,j,rfl,rfl,inside,goal,-⟩
    · rwa [same]
    · rw [edges_addEdge inside goal]
      split
      · exact List.mem_append_left _ member
      · exact member

/-- An accepted edge stays. -/
theorem mem_edges_of_accepted {additions before after : List Addition} {i j : Nat} {label : String}
    (split : additions = before ++ .edge i j label :: after)
    (accepted : ((grown before).addEdge i j label).1 = true) : ⟨j,label⟩ ∈ (grown additions).edges i := by
  obtain ⟨v,w,origin,goal,inside,inside',absent⟩ := (addEdge_accepts_iff ..).mp accepted
  obtain rfl := Int.natCast_inj.mp origin
  obtain rfl := Int.natCast_inj.mp goal
  have added : ⟨j,label⟩ ∈ ((grown before).extend (.edge i j label)).edges i := by
    rw [extend,edges_addEdge inside inside',if_pos ⟨rfl,by simpa [hasEdge] using absent⟩]
    exact List.mem_append_right _ (List.mem_singleton_self _)
  rw [split,grown,List.foldl_append,List.foldl_cons]
  exact List.foldlRecOn (motive := fun g => _ ∈ g.edges i) after extend added fun _ kept addition _ =>
    edges_extend_mono kept addition

theorem exists_accepted {additions : List Addition} {i : Nat} {edge : Edge} :
    edge ∈ (grown additions).edges i → ∃ before after, additions = before ++ .edge i edge.target edge.label :: after ∧
      ((grown before).addEdge i edge.target edge.label).1 = true := by
  induction additions using List.reverseRecOn with
  | nil => exact fun none => nomatch none
  | append_singleton additions last ih =>
    -- An edge that was there before the last addition goes back to an earlier one.
    have older : edge ∈ (grown additions).edges i →
        ∃ before after, additions ++ [last] = before ++ .edge i edge.target edge.label :: after ∧
          ((grown before).addEdge i edge.target edge.label).1 = true := by
      intro member
      obtain ⟨before,after,rfl,accepted⟩ := ih member
      exact ⟨before,after ++ [last],by simp,accepted⟩
    intro member
    rw [grown_snoc] at member
    cases last with
    | node path =>
      rw [extend,edges_addNode] at member
      exact older member
    | edge source target label =>
      rw [extend] at member
      rcases addEdge_cases (grown additions) source target label with same | ⟨v,w,rfl,rfl,inside,goal,-⟩
      · rw [same] at member
        exact older member
      · rw [edges_addEdge inside goal] at member
        split at member
        · rename_i new
          rcases List.mem_append.mp member with old | only
          · exact older old
          · obtain rfl := List.mem_singleton.mp only
            obtain ⟨rfl,absent⟩ := new
            refine ⟨additions,[],rfl,(addEdge_accepts_iff ..).mpr ⟨i,w,rfl,rfl,inside,goal,?_⟩⟩
            simpa [hasEdge] using absent
        · exact older member

/-- An edge has the label with which it was first accepted. -/
theorem mem_edges_iff {additions : List Addition} {i : Nat} {edge : Edge} :
    edge ∈ (grown additions).edges i ↔ FirstAccepted additions i edge.target edge.label := by
  constructor
  · intro member
    obtain ⟨before,after,split,accepted⟩ := exists_accepted member
    refine ⟨before,after,split,accepted,fun earlier between other splitBefore => ?_⟩
    -- Had it been accepted before, it would be there, and would not be accepted again.
    rw [Bool.eq_false_iff]
    intro already
    have present := mem_edges_of_accepted splitBefore already
    obtain ⟨v,w,origin,goal,-,-,absent⟩ := (addEdge_accepts_iff ..).mp accepted
    obtain rfl := Int.natCast_inj.mp origin
    obtain rfl := Int.natCast_inj.mp goal
    exact absent (List.mem_map.mpr ⟨_,present,rfl⟩)
  · rintro ⟨before,after,split,accepted,-⟩
    exact mem_edges_of_accepted split accepted

/-- However a graph grew, its nodes are the files that were added, in the order in which each came first; their paths
are pairwise distinct, and a file is found at the number of its node. Every edge leads to a node, no two edges of a node
lead to the same one, an edge is accepted between two nodes without one and keeps the label of the first addition of it
that was accepted, and the counter counts the edges of all nodes. -/
theorem grown_representation (additions : List Addition) :
    let g := grown additions
    g.nodes.map (·.path) = (additions.filterMap Addition.path?).eraseDups ∧
      (g.nodes.map (·.path)).Nodup ∧
      (∀ path i, g.find? path = some i ↔ g.pathAt? i = some path) ∧
      (∀ v, ∀ edge ∈ g.edges v, edge.target < g.size) ∧
      (∀ v, ((g.edges v).map (·.target)).Nodup) ∧
      (∀ source target label, (g.addEdge source target label).1 = true ↔
        ∃ i j : Nat, source = i ∧ target = j ∧ i < g.size ∧ j < g.size ∧ ∀ edge ∈ g.edges i, edge.target ≠ j) ∧
      (∀ v edge, edge ∈ g.edges v ↔ FirstAccepted additions v edge.target edge.label) ∧
      g.edgeCount = (g.nodes.map (·.edges.length)).sum := by
  intro g
  have proper : g.Proper := grown_proper additions
  refine ⟨grown_paths additions,proper.paths,fun path i => proper.find?_eq_some_iff,?_,proper.single,?_,
    fun v edge => mem_edges_iff,proper.counted⟩
  · intro v edge member
    exact proper.closed v edge.target (List.mem_map_of_mem member)
  · intro source target label
    rw [addEdge_accepts_iff]
    simp [successors]

end Depends.Graph
