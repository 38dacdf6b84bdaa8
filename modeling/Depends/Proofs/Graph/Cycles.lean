import Depends.Graph.Chain
import Depends.Graph.Metrics
import Depends.Proofs.Graph.Classes

/-!
What counts as a cycle. The metrics of a file say whether it lies on a cycle and in which component. The files that do
are those of the components with a cycle (`inCycle_perm`), and taken together by component they are these components
(`cycles_groups`). Where no file depends on itself, a cycle is a component with several members.
-/
namespace Depends.Graph

variable {g : Graph} {c v : Nat}

/-- The files of a component that lie on a cycle by the metrics. -/
def cycleGroup (g : Graph) (c : Nat) : List String :=
  (g.metrics.filter fun row => row.inCycle && row.component == c).map (·.path)

/-- The files that lie on a cycle by the metrics, one group for each component that has any. -/
def cycleGroups (g : Graph) : List (List String) :=
  ((List.range g.components.length).map g.cycleGroup).filter (· ≠ [])

/-- What the nodes have is found by their numbers. -/
theorem map_range_nodes {β : Type} (g : Graph) (f : GraphNode → β) (default : β) :
    ((List.range g.size).map fun v => (g.nodes[v]?.map f).getD default) = g.nodes.map f := by
  refine List.ext_getElem (by simp [size]) fun v _ inside => ?_
  have node : v < g.nodes.length := by simpa using inside
  simp [List.getElem?_eq_getElem node]

theorem map_range_pathOf (g : Graph) : (List.range g.size).map g.pathOf = g.nodes.map (·.path) :=
  g.map_range_nodes (·.path) ""

theorem components_perm (closed : g.Closed) : g.components.flatten.Perm (List.range g.size) := by
  have rooted := rooted_roots closed g.size (Nat.le_refl _)
  have distinct := rooted.sound.nodup
  have shared := rooted.sound.shared
  rw [rooted.empty,List.nil_append] at distinct shared
  refine (List.perm_ext_iff_of_nodup distinct List.nodup_range).mpr fun v => shared.mem_iff.trans ?_
  exact ⟨fun found => List.mem_range.mpr (rooted.sound.bounded v found),rooted.found v⟩

theorem components_ne_nil (closed : g.Closed) {members : List Nat} (listed : members ∈ g.components) : members ≠ [] :=
  ((rooted_roots closed g.size (Nat.le_refl _)).sound.strong members listed).1

theorem nodup_flatten_components (closed : g.Closed) : g.components.flatten.Nodup :=
  (components_perm closed).nodup_iff.mpr List.nodup_range

/-- The number of the component of a node is the place of the component that holds it. -/
theorem componentOf_eq_iff (closed : g.Closed) (inside : c < g.components.length) :
    componentOf g.components v = c ↔ v ∈ g.components[c] := by
  have apart := List.pairwise_iff_getElem.mp (List.nodup_flatten.mp (nodup_flatten_components closed)).2
  rw [componentOf,List.findIdx_eq inside,List.contains_iff_mem]
  refine ⟨And.left,fun member => ⟨member,fun j earlier => ?_⟩⟩
  rw [List.contains_eq_mem,decide_eq_false_iff_not]
  exact fun before => apart j c (by omega) inside earlier before member

/-! ### Nodes on cycles -/

/-- What the metrics say of a node. -/
def onCycle (g : Graph) (v : Nat) : Bool :=
  1 < (g.components.getD (componentOf g.components v) []).length || g.hasLoop v

/-- A node lies on a cycle when its component has one. -/
theorem onCycle_eq (closed : g.Closed) {members : List Nat} (listed : members ∈ g.components) (member : v ∈ members) :
    g.onCycle v = g.isCyclic members := by
  obtain ⟨c,inside,rfl⟩ := List.mem_iff_getElem.mp listed
  have here : g.components.getD (componentOf g.components v) [] = g.components[c] := by
    rw [(componentOf_eq_iff closed inside).mpr member,List.getD_eq_getElem?_getD,List.getElem?_eq_getElem inside,
      Option.getD_some]
  rw [onCycle,here,isCyclic]
  -- In a component of one node this is the node that may have an edge to itself.
  rcases several : g.components[c] with _ | ⟨first,_ | ⟨second,rest⟩⟩
  · simp [several] at member
  · obtain rfl : v = first := by simpa [several] using member
    rfl
  · simp

theorem onCycle_perm (closed : g.Closed) : ((List.range g.size).filter g.onCycle).Perm g.cycles.flatten := by
  have apart := List.nodup_flatten.mp (nodup_flatten_components closed)
  have distinct : g.cycles.flatten.Nodup :=
    List.nodup_flatten.mpr ⟨fun members chosen => apart.1 members (List.mem_of_mem_filter chosen),apart.2.filter _⟩
  refine (List.perm_ext_iff_of_nodup (List.nodup_range.filter _) distinct).mpr fun v => ?_
  rw [List.mem_filter,← (components_perm closed).mem_iff,List.mem_flatten,List.mem_flatten]
  constructor
  · rintro ⟨⟨members,listed,member⟩,cyclic⟩
    exact ⟨members,List.mem_filter.mpr ⟨listed,onCycle_eq closed listed member ▸ cyclic⟩,member⟩
  · rintro ⟨members,chosen,member⟩
    obtain ⟨listed,cyclic⟩ := List.mem_filter.mp chosen
    exact ⟨⟨members,listed,member⟩,(onCycle_eq closed listed member).trans cyclic⟩

/-- The files that lie on a cycle by the metrics are those of the components with a cycle. -/
theorem inCycle_perm (closed : g.Closed) :
    ((g.metrics.filter (·.inCycle)).map (·.path)).Perm (g.cycles.flatten.map g.pathOf) := by
  refine List.Perm.trans ?_ ((onCycle_perm closed).map g.pathOf)
  refine (((List.mergeSort_perm _ _).filter _).map _).trans ?_
  rw [List.filter_map,List.map_map]
  rfl

/-! ### Groups -/

/-- The nodes of a component that lie on a cycle: all of them or none. -/
theorem onCycle_component_perm (closed : g.Closed) (inside : c < g.components.length) :
    ((List.range g.size).filter fun v => g.onCycle v && componentOf g.components v == c).Perm
      (if g.isCyclic g.components[c] then g.components[c] else []) := by
  have listed := List.getElem_mem inside
  have distinct : (if g.isCyclic g.components[c] then g.components[c] else []).Nodup := by
    split
    · exact (List.nodup_flatten.mp (nodup_flatten_components closed)).1 _ listed
    · exact List.nodup_nil
  refine (List.perm_ext_iff_of_nodup (List.nodup_range.filter _) distinct).mpr fun v => ?_
  rw [List.mem_filter,Bool.and_eq_true,beq_iff_eq,componentOf_eq_iff closed inside]
  constructor
  · rintro ⟨-,cyclic,member⟩
    rw [onCycle_eq closed listed member] at cyclic
    rwa [if_pos cyclic]
  · intro member
    split at member
    · rename_i cyclic
      have node := (components_perm closed).mem_iff.mp (List.mem_flatten.mpr ⟨_,listed,member⟩)
      exact ⟨node,(onCycle_eq closed listed member).trans cyclic,member⟩
    · cases member

/-- A group holds the paths of a component with a cycle, or nothing. -/
theorem cycleGroup_perm (closed : g.Closed) (inside : c < g.components.length) :
    (g.cycleGroup c).Perm (if g.isCyclic g.components[c] then g.components[c].map g.pathOf else []) := by
  have group := (onCycle_component_perm closed inside).map g.pathOf
  rw [apply_ite (List.map g.pathOf),List.map_nil] at group
  refine List.Perm.trans ?_ group
  refine (((List.mergeSort_perm _ _).filter _).map _).trans ?_
  rw [List.filter_map,List.map_map]
  rfl

/-- The components with a cycle, as paths, are what the metrics say when they are taken together by component. -/
theorem cycles_groups (closed : g.Closed) :
    List.Forall₂ List.Perm (g.cycles.map fun members => members.map g.pathOf) g.cycleGroups := by
  have each : List.Forall₂ (fun members group =>
      group.Perm (if g.isCyclic members then members.map g.pathOf else [])) g.components
        ((List.range g.components.length).map g.cycleGroup) := by
    refine List.forall₂_iff_get.mpr ⟨by simp,fun c inside _ => ?_⟩
    simpa using cycleGroup_perm closed inside
  have filled : ∀ members ∈ g.components, members ≠ [] := fun _ => components_ne_nil closed
  unfold cycles cycleGroups
  generalize (List.range g.components.length).map g.cycleGroup = groups at each
  generalize g.components = components at each filled
  induction each with
  | nil => exact .nil
  | @cons members group _ _ same _ ih =>
    rw [List.forall_mem_cons] at filled
    by_cases cyclic : g.isCyclic members = true
    · rw [if_pos cyclic] at same
      have present : group ≠ [] := by
        rintro rfl
        exact filled.1 (List.map_eq_nil_iff.mp same.nil_eq.symm)
      rw [List.filter_cons_of_pos cyclic,List.filter_cons_of_pos (by simpa using present)]
      exact .cons same.symm (ih filled.2)
    · rw [if_neg cyclic] at same
      rw [List.filter_cons_of_neg cyclic,same.eq_nil,List.filter_cons_of_neg (by simp)]
      exact ih filled.2

/-- A tidy graph has no edge from a node to itself. -/
theorem Tidy.hasLoop_eq (tidy : g.Tidy) (v : Nat) : g.hasLoop v = false := by
  rw [hasLoop,hasEdge,List.contains_eq_mem,decide_eq_false_iff_not]
  intro member
  obtain ⟨edge,listed,here⟩ := List.mem_map.mp member
  obtain ⟨target,goal,other,-⟩ := tidy.labels v edge listed
  exact other (here ▸ goal)

theorem isCyclic_of_no_loop (none : ∀ v, g.hasLoop v = false) (members : List Nat) :
    g.isCyclic members = decide (1 < members.length) := by
  cases members with
  | nil => rfl
  | cons first rest => simp [isCyclic,none]

end Depends.Graph
