import Depends.Proofs.Graph.Linking
import Mathlib.Data.List.Forall2

/-!
The edges of a file by the paths that they lead to. Node numbers depend on the order in which files became nodes;
the edges of a file, read off as paths with labels, depend only on the links from that file and on their order
(`outgoing?_connectAll`).
-/
namespace Depends.Graph

variable {g : Graph} {path source target : String} {edges : List (String × String)}

/-- The edges of a file in order, each with the path that it leads to and its label. -/
def outgoing? (g : Graph) (path : String) : Option (List (String × String)) :=
  (g.find? path).bind fun i => (g.edges i).mapM fun edge => (g.pathAt? edge.target).map (·,edge.label)

/-- An edge leads to a path and has a label. -/
def Names (g : Graph) (edge : Edge) (pair : String × String) : Prop :=
  g.pathAt? edge.target = some pair.1 ∧ edge.label = pair.2

theorem mapM_names {listed : List Edge} :
    (listed.mapM fun edge => (g.pathAt? edge.target).map (·,edge.label)) = some edges ↔
      List.Forall₂ g.Names listed edges := by
  induction listed generalizing edges with
  | nil =>
    rw [List.forall₂_nil_left_iff]
    exact ⟨fun none => (Option.some.inj none).symm,fun none => congrArg some none.symm⟩
  | cons edge listed ih =>
    simp only [List.mapM_cons,Option.bind_eq_bind,Option.bind_eq_some_iff,Option.map_eq_some_iff,ih,
      List.forall₂_cons_left_iff]
    constructor
    · rintro ⟨pair,⟨target,goal,rfl⟩,rest,named,same⟩
      exact ⟨_,rest,⟨goal,rfl⟩,named,(Option.some.inj same).symm⟩
    · rintro ⟨⟨target,label⟩,rest,⟨goal,rfl⟩,named,rfl⟩
      exact ⟨_,⟨target,goal,rfl⟩,rest,named,rfl⟩

theorem outgoing?_eq_some_iff :
    g.outgoing? path = some edges ↔ ∃ i, g.find? path = some i ∧ List.Forall₂ g.Names (g.edges i) edges := by
  simp only [outgoing?,Option.bind_eq_some_iff,mapM_names]

theorem outgoing?_addNode (known : g.outgoing? path = some edges) (other : String) :
    (g.addNode other).2.outgoing? path = some edges := by
  obtain ⟨i,found,named⟩ := outgoing?_eq_some_iff.mp known
  refine outgoing?_eq_some_iff.mpr ⟨i,find?_addNode_mono found other,?_⟩
  rw [edges_addNode]
  refine named.imp fun edge pair names => ⟨?_,names.2⟩
  have inside : edge.target < g.size := by simpa [size] using (List.getElem?_eq_some_iff.mp names.1).1
  rw [pathAt?_addNode inside,names.1]

/-- A node has an edge to a file exactly when the file is among the paths of its edges. -/
theorem Tidy.hasEdge_iff (tidy : g.Tidy) {i j : Nat} (named : List.Forall₂ g.Names (g.edges i) edges)
    (goal : g.find? target = some j) : g.hasEdge i j = true ↔ target ∈ edges.map (·.1) := by
  rw [hasEdge,List.contains_iff_mem,successors]
  generalize g.edges i = listed at named
  induction named with
  | nil => simp
  | @cons edge pair _ _ names _ ih =>
    have here : j = edge.target ↔ target = pair.1 := by
      constructor
      · rintro rfl
        exact Option.some.inj ((pathAt?_of_find? goal).symm.trans names.1)
      · rintro rfl
        exact Option.some.inj (goal.symm.trans (tidy.find?_eq names.1))
    rw [List.map_cons,List.map_cons,List.mem_cons,List.mem_cons,here,ih]

/-- The edges of a file once it is linked to another one. -/
def addTarget (edges : List (String × String)) (target : String) : List (String × String) :=
  if target ∈ edges.map (·.1) then edges else edges ++ [(target,Path.base target)]

theorem Tidy.outgoing?_addEdge (tidy : g.Tidy) (known : g.outgoing? path = some edges) {i j : Nat}
    (origin : g.find? source = some i) (goal : g.find? target = some j) :
    (g.addEdge i j (Path.base target)).2.outgoing? path =
      some (if source = path then addTarget edges target else edges) := by
  obtain ⟨k,found,named⟩ := outgoing?_eq_some_iff.mp known
  have files : ∀ edge pair, g.Names edge pair → (g.addEdge i j (Path.base target)).2.Names edge pair := by
    intro edge pair names
    rwa [Names,pathAt?,paths_addEdge]
  refine outgoing?_eq_some_iff.mpr ⟨k,(find?_addEdge g i j _ path).trans found,?_⟩
  rw [edges_addEdge (find?_lt origin) (find?_lt goal)]
  by_cases here : source = path
  · subst here
    obtain rfl : i = k := Option.some.inj (origin.symm.trans found)
    have present := tidy.hasEdge_iff named goal
    rw [if_pos rfl,addTarget]
    by_cases old : target ∈ edges.map (·.1)
    · rw [if_pos old,if_neg (by simp [present.mpr old])]
      exact named.imp files
    · have absent : g.hasEdge i j = false := by simpa using fun edge => old (present.mp edge)
      rw [if_neg old,if_pos ⟨rfl,absent⟩]
      refine List.rel_append (named.imp files) (.cons (files _ _ ⟨pathAt?_of_find? goal,rfl⟩) .nil)
  · have apart : ¬ (k = i ∧ g.hasEdge i j = false) := fun both => here (path_eq_of_find? origin (both.1 ▸ found))
    rw [if_neg here,if_neg apart]
    exact named.imp files

theorem Tidy.outgoing?_connect (tidy : g.Tidy) (known : g.outgoing? path = some edges) (source target : String) :
    (g.connect source target).outgoing? path = some (if source = path then addTarget edges target else edges) :=
  ((tidy.addNode source).addNode target).outgoing?_addEdge (outgoing?_addNode (outgoing?_addNode known source) target)
    (find?_addNode_mono (find?_addNode_self g source) target) (find?_addNode_self _ target)

/-- The edges of a file depend on the links from it, in their order, and on no other links. -/
theorem Tidy.outgoing?_connectAll {pairs : List (String × String)} (other : ∀ pair ∈ pairs, pair.2 ≠ pair.1) :
    ∀ {g : Graph} {edges : List (String × String)}, g.Tidy → g.outgoing? path = some edges →
      (g.connectAll pairs).outgoing? path =
        some (((pairs.filter (·.1 = path)).map (·.2)).foldl addTarget edges) := by
  induction pairs with
  | nil => exact fun _ known => known
  | cons pair pairs ih =>
    intro g edges tidy known
    rw [List.forall_mem_cons] at other
    have first := tidy.outgoing?_connect known pair.1 pair.2
    have rest := ih other.2 (tidy.connect other.1) first
    by_cases here : pair.1 = path
    · rw [List.filter_cons_of_pos (by simpa using here),List.map_cons,List.foldl_cons]
      rwa [if_pos here] at rest
    · rw [List.filter_cons_of_neg (by simpa using here)]
      rwa [if_neg here] at rest

end Depends.Graph
