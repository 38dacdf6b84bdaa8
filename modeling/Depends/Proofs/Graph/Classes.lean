import Depends.Proofs.Graph.Outgoing
import Depends.Proofs.Graph.StrongComponents
import Mathlib.Data.Finset.Dedup

/-!
Strong components as sets of paths. Which numbers nodes have and in which order components come out depends on the order
in which files were added; the sets of paths depend only on which files are nodes and which are linked
(`classes_congr`), so on the edges of each file (`classes_of_outgoing`).
-/
namespace Depends.Graph

variable {g h : Graph} {path source target : String} {i j : Nat}

/-- The strong components, each as the set of the paths of its nodes. -/
def classes (g : Graph) : Finset (Finset String) :=
  (g.components.map fun members => (members.filterMap g.pathAt?).toFinset).toFinset

/-- Links lead from one file to another one, in any number of steps, and back. -/
def Joined (g : Graph) (source target : String) : Prop :=
  Relation.ReflTransGen g.Linked source target ∧ Relation.ReflTransGen g.Linked target source

theorem pathAt?_isSome (inside : i < g.size) : ∃ path, g.pathAt? i = some path := by
  have node : g.nodes[i]? = some g.nodes[i] := List.getElem?_eq_getElem inside
  exact ⟨g.nodes[i].path,by rw [pathAt?,List.getElem?_map,node]; rfl⟩

theorem lt_size_of_pathAt? (here : g.pathAt? i = some path) : i < g.size := by
  simpa [size] using (List.getElem?_eq_some_iff.mp here).1

theorem Tidy.closed (tidy : g.Tidy) : g.Closed := by
  intro v w edge
  obtain ⟨e,member,rfl⟩ := List.mem_map.mp edge
  obtain ⟨target,goal,-⟩ := tidy.labels v e member
  exact lt_size_of_pathAt? goal

/-- The links from a file are those to the paths of its edges. -/
theorem Tidy.linked_iff (tidy : g.Tidy) {edges : List (String × String)} (known : g.outgoing? source = some edges) :
    g.Linked source target ↔ target ∈ edges.map (·.1) := by
  obtain ⟨i,found,named⟩ := outgoing?_eq_some_iff.mp known
  constructor
  · rintro ⟨k,j,origin,goal,edge⟩
    obtain rfl : k = i := Option.some.inj (origin.symm.trans found)
    exact (tidy.hasEdge_iff named goal).mp edge
  · intro member
    have leads : ∃ edge ∈ g.edges i, g.pathAt? edge.target = some target := by
      clear known
      generalize g.edges i = listed at named
      induction named with
      | nil => cases member
      | @cons edge pair _ _ names _ ih =>
        rcases List.mem_cons.mp member with rfl | later
        · exact ⟨edge,List.mem_cons_self ..,names.1⟩
        · obtain ⟨other,inside,goal⟩ := ih later
          exact ⟨other,List.mem_cons_of_mem _ inside,goal⟩
    obtain ⟨edge,listed,goal⟩ := leads
    exact tidy.linked listed (pathAt?_of_find? found) goal

/-- Where every file has one node, edges lead from node to node as links do from file to file. -/
theorem reaches_iff_links (distinct : (g.nodes.map (·.path)).Nodup) (origin : g.find? source = some i)
    (goal : g.find? target = some j) : g.Reaches i j ↔ Relation.ReflTransGen g.Linked source target := by
  constructor
  · intro reaches
    have here := pathAt?_of_find? goal
    clear goal
    -- Every node on the way has a path, and each edge is a link between the paths of its nodes.
    induction reaches generalizing target with
    | refl =>
      obtain rfl : source = target := Option.some.inj ((pathAt?_of_find? origin).symm.trans here)
      exact .refl
    | @tail v w _ edge ih =>
      obtain ⟨e,member,-⟩ := List.mem_map.mp edge
      obtain ⟨between,there⟩ := pathAt?_isSome (lt_size_of_mem_edges member)
      exact (ih there).tail (linked_of_successor distinct edge there here)
  · intro links
    induction links generalizing j with
    | refl =>
      obtain rfl : i = j := Option.some.inj (origin.symm.trans goal)
      exact .refl
    | tail _ link ih =>
      obtain ⟨v,w,first,second,edge⟩ := link
      obtain rfl : w = j := Option.some.inj (second.symm.trans goal)
      exact (ih first).tail (List.contains_iff_mem.mp edge)

theorem Tidy.reaches_iff (tidy : g.Tidy) (origin : g.find? source = some i) (goal : g.find? target = some j) :
    g.Reaches i j ↔ Relation.ReflTransGen g.Linked source target :=
  reaches_iff_links tidy.paths origin goal

/-! ### Components -/

/-- Components are classes of nodes that reach each other, and every node is in one. -/
theorem components_mutual (closed : g.Closed) :
    (∀ members ∈ g.components, ∃ v < g.size, ∀ w, w ∈ members ↔ g.Mutual v w) ∧
      ∀ v < g.size, ∃ members ∈ g.components, ∀ w, w ∈ members ↔ g.Mutual v w := by
  have rooted := rooted_roots closed g.size (Nat.le_refl _)
  have sound := rooted.sound
  have all : ∀ v, v ∈ g.components.flatten ↔ v ∈ ((List.range g.size).foldl g.visitRoot {}).found := by
    have shared := sound.shared
    rw [rooted.empty,List.nil_append] at shared
    exact fun v => shared.mem_iff
  constructor
  · intro members listed
    obtain ⟨filled,reaching⟩ := sound.strong members listed
    obtain ⟨v,inside⟩ := List.exists_mem_of_ne_nil members filled
    exact ⟨v,sound.bounded v ((all v).mp (List.mem_flatten.mpr ⟨members,listed,inside⟩)),reaching v inside⟩
  · intro v inside
    obtain ⟨members,listed,member⟩ := List.mem_flatten.mp ((all v).mpr (rooted.found v (List.mem_range.mpr inside)))
    exact ⟨members,listed,(sound.strong members listed).2 v member⟩

/-- The paths of the nodes that a node reaches and that reach it. -/
theorem Tidy.mem_paths (tidy : g.Tidy) (origin : g.find? source = some i) {members : List Nat}
    (reaching : ∀ w, w ∈ members ↔ g.Mutual i w) :
    target ∈ (members.filterMap g.pathAt?).toFinset ↔ (g.find? target).isSome ∧ g.Joined source target := by
  rw [List.mem_toFinset,List.mem_filterMap]
  constructor
  · rintro ⟨w,member,here⟩
    have goal := tidy.find?_eq here
    obtain ⟨there,back⟩ := (reaching w).mp member
    exact ⟨by simp [goal],(tidy.reaches_iff origin goal).mp there,(tidy.reaches_iff goal origin).mp back⟩
  · rintro ⟨node,there,back⟩
    obtain ⟨w,goal⟩ := Option.isSome_iff_exists.mp node
    refine ⟨w,(reaching w).mpr ?_,pathAt?_of_find? goal⟩
    exact ⟨(tidy.reaches_iff origin goal).mpr there,(tidy.reaches_iff goal origin).mpr back⟩

theorem Tidy.mem_classes_iff (tidy : g.Tidy) {paths : Finset String} :
    paths ∈ g.classes ↔ ∃ source, (g.find? source).isSome ∧
      ∀ target, target ∈ paths ↔ (g.find? target).isSome ∧ g.Joined source target := by
  obtain ⟨spec,every⟩ := components_mutual tidy.closed
  simp only [classes,List.mem_toFinset,List.mem_map]
  constructor
  · rintro ⟨members,listed,rfl⟩
    obtain ⟨v,inside,reaching⟩ := spec members listed
    obtain ⟨source,here⟩ := pathAt?_isSome inside
    have origin := tidy.find?_eq here
    exact ⟨source,by simp [origin],fun target => tidy.mem_paths origin reaching⟩
  · rintro ⟨source,node,own⟩
    obtain ⟨v,origin⟩ := Option.isSome_iff_exists.mp node
    obtain ⟨members,listed,same⟩ := every v (find?_lt origin)
    refine ⟨members,listed,Finset.ext fun target => ?_⟩
    rw [tidy.mem_paths origin same,own]

/-- Graphs with the same files as nodes and the same links have the same components. -/
theorem classes_congr (tidy : g.Tidy) (tidy' : h.Tidy) (nodes : ∀ path, (h.find? path).isSome ↔ (g.find? path).isSome)
    (links : ∀ source target, h.Linked source target ↔ g.Linked source target) : h.classes = g.classes := by
  have same : h.Linked = g.Linked := funext fun source => funext fun target => propext (links source target)
  ext paths
  simp only [tidy.mem_classes_iff,tidy'.mem_classes_iff,nodes,Joined,same]

/-- So have graphs with the same files as nodes, each with the same edges in both. -/
theorem classes_of_outgoing (tidy : g.Tidy) (tidy' : h.Tidy) {paths : List String}
    (nodes : ∀ path, (g.find? path).isSome ↔ path ∈ paths) (nodes' : ∀ path, (h.find? path).isSome ↔ path ∈ paths)
    (edges : ∀ path ∈ paths, ∃ edges, g.outgoing? path = some edges ∧ h.outgoing? path = some edges) :
    h.classes = g.classes := by
  refine classes_congr tidy tidy' (fun path => (nodes' path).trans (nodes path).symm) fun source target => ?_
  by_cases listed : source ∈ paths
  · obtain ⟨edges,left,right⟩ := edges source listed
    rw [tidy.linked_iff left,tidy'.linked_iff right]
  · constructor
    · rintro ⟨i,j,origin,-⟩
      exact absurd ((nodes' source).mp (by simp [origin])) listed
    · rintro ⟨i,j,origin,-⟩
      exact absurd ((nodes source).mp (by simp [origin])) listed

end Depends.Graph
