import Depends.Graph.Chain
import Depends.Proofs.Graph.Reachability
import Depends.Proofs.Text.Distinct

/-!
Edges between files by their paths. Linking two files adds the nodes and the edge that are missing, so a
graph that has the edge stays as it is, and links never add another edge than their own
(`linked_connectAll`). Links between different files keep one node for each file, one edge between two nodes
and the labels of the edges (`Tidy.connectAll`).
-/
namespace Depends.Graph

/-- Links a file to another one, adding what is missing. -/
def connect (g : Graph) (source target : String) : Graph :=
  let (i,g) := g.addNode source
  let (j,g) := g.addNode target
  (g.addEdge i j (Path.base target)).2

/-- There is an edge between the nodes of two files. -/
def Linked (g : Graph) (source target : String) : Prop :=
  ∃ i j, g.find? source = some i ∧ g.find? target = some j ∧ g.hasEdge i j = true

/-- Links pairs of files one after the other. -/
def connectAll (g : Graph) (pairs : List (String × String)) : Graph :=
  pairs.foldl (fun g pair => g.connect pair.1 pair.2) g

theorem connectAll_append (g : Graph) (first second : List (String × String)) :
    g.connectAll (first ++ second) = (g.connectAll first).connectAll second := List.foldl_append

variable {g : Graph} {path source target : String}

/-- The index gives the first position of a path. -/
theorem lookup_zipIdx (paths : List String) (path : String) (first : Nat) :
    (paths.zipIdx first).lookup path = (paths.findIdx? (· == path)).map (· + first) := by
  induction paths generalizing first with
  | nil => rfl
  | cons here paths ih =>
    by_cases same : path = here
    · simp [same,List.findIdx?_cons]
    · have other : (here == path) = false := beq_eq_false_iff_ne.mpr (Ne.symm same)
      rw [List.zipIdx_cons,lookup_cons_ne same,ih,List.findIdx?_cons,other]
      simp [Option.map_map,Function.comp_def,Nat.add_comm,Nat.add_left_comm]

theorem find?_eq_findIdx? (g : Graph) (path : String) :
    g.find? path = (g.nodes.map (·.path)).findIdx? (· == path) := by
  rw [find?,g.indexed,lookup_zipIdx]
  exact congrFun Option.map_id _

@[simp] theorem find?_empty (path : String) : ({} : Graph).find? path = none := rfl

theorem find?_isSome_iff : (g.find? path).isSome ↔ path ∈ g.nodes.map (·.path) := by
  rw [find?_eq_findIdx?,List.findIdx?_isSome]
  simp

/-- Where a file is found depends on the paths of the nodes only. -/
theorem find?_congr {h : Graph} (paths : h.nodes.map (·.path) = g.nodes.map (·.path)) (path : String) :
    h.find? path = g.find? path := by
  rw [find?_eq_findIdx?,find?_eq_findIdx?,paths]

theorem find?_lt {i : Nat} (found : g.find? path = some i) : i < g.size := by
  rw [find?_eq_findIdx?] at found
  obtain ⟨inside,-⟩ := List.findIdx?_eq_some_iff_getElem.mp found
  rwa [List.length_map] at inside

theorem path_eq_of_find? {i : Nat} {other : String} (found : g.find? path = some i) (again : g.find? other = some i) :
    path = other := by
  rw [find?_eq_findIdx?] at found again
  obtain ⟨_,here,-⟩ := List.findIdx?_eq_some_iff_getElem.mp found
  obtain ⟨_,there,-⟩ := List.findIdx?_eq_some_iff_getElem.mp again
  exact (beq_iff_eq.mp here).symm.trans (beq_iff_eq.mp there)

theorem find?_addNode (g : Graph) (path other : String) :
    (g.addNode path).2.find? other = (g.find? other).or (if other = path then some (g.addNode path).1 else none) := by
  unfold addNode
  cases found : g.find? path with
  | some i =>
    by_cases same : other = path
    · simp [same,found]
    · simp [same]
  | none =>
    simp only [find?,List.lookup_append]
    by_cases same : other = path
    · simp [same]
    · rw [lookup_cons_ne same,if_neg same]
      rfl

theorem find?_addNode_self (g : Graph) (path : String) : (g.addNode path).2.find? path = some (g.addNode path).1 := by
  rw [find?_addNode]
  cases found : g.find? path with
  | none => simp
  | some i => simp [addNode,found]

theorem find?_addNode_mono {i : Nat} (found : g.find? source = some i) (path : String) :
    (g.addNode path).2.find? source = some i := by
  rw [find?_addNode,found,Option.some_or]

theorem edges_addNode (g : Graph) (path : String) (v : Nat) : (g.addNode path).2.edges v = g.edges v := by
  unfold addNode
  split
  · rfl
  · simp only [edges]
    rcases Nat.lt_or_ge v g.nodes.length with inside | outside
    · rw [List.getElem?_append_left inside]
    · -- Past the old nodes there is at most the new one, which has no edges.
      rw [List.getElem?_append_right outside,List.getElem?_eq_none outside]
      cases found : [({ path } : GraphNode)][v - g.nodes.length]? with
      | none => rfl
      | some node => rw [List.mem_singleton.mp (List.mem_of_getElem? found)]; rfl

theorem successors_addNode (g : Graph) (path : String) (v : Nat) :
    (g.addNode path).2.successors v = g.successors v := by
  simp only [successors,edges_addNode]

theorem nodup_paths_addNode (distinct : (g.nodes.map (·.path)).Nodup) (path : String) :
    ((g.addNode path).2.nodes.map (·.path)).Nodup := by
  unfold addNode
  cases found : g.find? path with
  | some i => exact distinct
  | none =>
    rw [List.map_append,List.nodup_append]
    refine ⟨distinct,by simp,fun other member last only => ?_⟩
    have absent : path ∉ g.nodes.map (·.path) := by simp [← find?_isSome_iff,found]
    rw [show last = path by simpa using only]
    exact fun same => absent (same ▸ member)

theorem linked_addNode (closed : g.Closed) (path : String) :
    (g.addNode path).2.Linked source target ↔ g.Linked source target := by
  constructor
  · rintro ⟨i,j,origin,goal,edge⟩
    simp only [hasEdge,successors_addNode] at edge
    have member : j ∈ g.successors i := by simpa using edge
    have below : j < g.size := closed i j member
    have above : i < g.size := by
      obtain ⟨node,found,-⟩ := mem_successors.mp member
      exact (List.getElem?_eq_some_iff.mp found).1
    -- Both numbers are those of old nodes, so the paths were found before.
    have old : ∀ {file k}, (g.addNode path).2.find? file = some k → k < g.size → g.find? file = some k := by
      intro file k found bound
      rw [find?_addNode] at found
      cases before : g.find? file with
      | some l => simpa [before] using found
      | none =>
        rw [before,Option.none_or] at found
        split at found
        · rename_i same
          subst same
          simp only [addNode,before,Option.some.injEq] at found
          omega
        · cases found
    exact ⟨i,j,old origin above,old goal below,edge⟩
  · rintro ⟨i,j,origin,goal,edge⟩
    refine ⟨i,j,find?_addNode_mono origin path,find?_addNode_mono goal path,?_⟩
    simpa only [hasEdge,successors_addNode] using edge

theorem node?_natCast {i : Nat} (inside : i < g.size) : g.node? i = some i := by
  simp [node?,inside]

theorem paths_addEdge (g : Graph) (source target : Int) (label : String) :
    (g.addEdge source target label).2.nodes.map (·.path) = g.nodes.map (·.path) := by
  unfold addEdge
  split
  · split
    · rfl
    · exact map_path_modify g.nodes _ _
  · rfl

theorem find?_addEdge (g : Graph) (source target : Int) (label path : String) :
    (g.addEdge source target label).2.find? path = g.find? path :=
  find?_congr (paths_addEdge g source target label) path

/-- A new edge comes last among those of its node. -/
theorem edges_addEdge {i j : Nat} (source : i < g.size) (target : j < g.size) (label : String) (v : Nat) :
    (g.addEdge i j label).2.edges v =
      if v = i ∧ g.hasEdge i j = false then g.edges v ++ [⟨j,label⟩] else g.edges v := by
  simp only [addEdge,node?_natCast source,node?_natCast target]
  cases present : g.hasEdge i j with
  | true => simp
  | false =>
    simp only [edges,List.getElem?_modify,Bool.false_eq_true,↓reduceIte,and_true]
    by_cases here : v = i
    · subst here
      have inside : g.nodes[v]? = some g.nodes[v] := List.getElem?_eq_getElem source
      simp [inside]
    · simp [here,Ne.symm here]

theorem hasEdge_addEdge {i j : Nat} (source : i < g.size) (target : j < g.size) (label : String) (v w : Nat) :
    (g.addEdge i j label).2.hasEdge v w = true ↔ g.hasEdge v w = true ∨ v = i ∧ w = j := by
  have edges := edges_addEdge source target label v
  by_cases added : v = i ∧ g.hasEdge i j = false
  · rw [if_pos added] at edges
    have last : (g.addEdge i j label).2.successors v = g.successors v ++ [j] := by simp [successors,edges]
    rw [hasEdge,last]
    simp [hasEdge,added.1]
  · rw [if_neg added] at edges
    have same : (g.addEdge i j label).2.hasEdge v w = g.hasEdge v w := by rw [hasEdge,successors,edges]; rfl
    rw [same]
    refine ⟨.inl,?_⟩
    rintro (edge | ⟨rfl,rfl⟩)
    · exact edge
    · simpa using added

theorem nodup_successors_addEdge {i j v : Nat} (source : i < g.size) (target : j < g.size) (label : String)
    (distinct : (g.successors v).Nodup) : ((g.addEdge i j label).2.successors v).Nodup := by
  rw [successors,edges_addEdge source target]
  split
  · rename_i new
    have absent : j ∉ g.successors v := by
      rw [new.1]
      simpa [hasEdge] using new.2
    rw [List.map_append,List.nodup_append]
    refine ⟨distinct,by simp,fun old member last only => ?_⟩
    obtain rfl : last = j := by simpa using only
    exact fun equal => absent (equal ▸ member)
  · exact distinct

/-- A link that is there changes nothing. -/
theorem connect_eq_self (linked : g.Linked source target) : g.connect source target = g := by
  obtain ⟨i,j,origin,goal,edge⟩ := linked
  have inside : i < g.size := find?_lt origin
  have insideToo : j < g.size := find?_lt goal
  simp [connect,addNode,origin,goal,addEdge,node?_natCast inside,node?_natCast insideToo,edge]

theorem connect_closed (closed : g.Closed) (source target : String) : (g.connect source target).Closed :=
  closed_addEdge (closed_addNode (closed_addNode closed source) target) _ _ _

theorem linked_connect (closed : g.Closed) (source target origin goal : String) :
    (g.connect source target).Linked origin goal ↔ g.Linked origin goal ∨ origin = source ∧ goal = target := by
  have first := closed_addNode closed source
  obtain ⟨i,foundSource⟩ : ∃ i, (g.addNode source).1 = i := ⟨_,rfl⟩
  obtain ⟨j,foundTarget⟩ : ∃ j, ((g.addNode source).2.addNode target).1 = j := ⟨_,rfl⟩
  have sourceAt : ((g.addNode source).2.addNode target).2.find? source = some i :=
    find?_addNode_mono (foundSource ▸ find?_addNode_self g source) target
  have targetAt : ((g.addNode source).2.addNode target).2.find? target = some j :=
    foundTarget ▸ find?_addNode_self _ target
  rw [← linked_addNode closed source,← linked_addNode first target]
  simp only [connect,foundSource,foundTarget,Linked,find?_addEdge,
    hasEdge_addEdge (find?_lt sourceAt) (find?_lt targetAt)]
  constructor
  · rintro ⟨v,w,fromAt,toAt,edge | ⟨rfl,rfl⟩⟩
    · exact .inl ⟨v,w,fromAt,toAt,edge⟩
    · exact .inr ⟨path_eq_of_find? fromAt sourceAt,path_eq_of_find? toAt targetAt⟩
  · rintro (⟨v,w,fromAt,toAt,edge⟩ | ⟨rfl,rfl⟩)
    · exact ⟨v,w,fromAt,toAt,.inl edge⟩
    · exact ⟨i,j,sourceAt,targetAt,.inr ⟨rfl,rfl⟩⟩

theorem find?_connect_isSome (found : (g.find? path).isSome) (source target : String) :
    ((g.connect source target).find? path).isSome := by
  obtain ⟨i,found⟩ := Option.isSome_iff_exists.mp found
  have kept : (g.connect source target).find? path = some i := by
    simp only [connect,find?_addEdge]
    exact find?_addNode_mono (find?_addNode_mono found source) target
  exact Option.isSome_iff_exists.mpr ⟨i,kept⟩

theorem find?_connectAll_isSome (pairs : List (String × String)) (found : (g.find? path).isSome) :
    ((g.connectAll pairs).find? path).isSome := by
  induction pairs generalizing g with
  | nil => exact found
  | cons pair pairs ih => exact ih (find?_connect_isSome found pair.1 pair.2)

/-- A link between nodes that are there adds no node. -/
theorem paths_connect (known : (g.find? source).isSome) (goal : (g.find? target).isSome) :
    (g.connect source target).nodes.map (·.path) = g.nodes.map (·.path) := by
  obtain ⟨i,origin⟩ := Option.isSome_iff_exists.mp known
  obtain ⟨j,goal⟩ := Option.isSome_iff_exists.mp goal
  simp only [connect,addNode,origin,goal]
  exact paths_addEdge g i j _

theorem paths_connectAll {pairs : List (String × String)}
    (known : ∀ pair ∈ pairs, (g.find? pair.1).isSome ∧ (g.find? pair.2).isSome) :
    (g.connectAll pairs).nodes.map (·.path) = g.nodes.map (·.path) := by
  induction pairs generalizing g with
  | nil => rfl
  | cons pair pairs ih =>
    rw [List.forall_mem_cons] at known
    have first := paths_connect known.1.1 known.1.2
    have later : ∀ other ∈ pairs, ((g.connect pair.1 pair.2).find? other.1).isSome ∧
        ((g.connect pair.1 pair.2).find? other.2).isSome := by
      intro other member
      rw [find?_congr first,find?_congr first]
      exact known.2 other member
    exact (ih later).trans first

/-! ### Labels -/

/-- The file of the node with a number. -/
def pathAt? (g : Graph) (i : Nat) : Option String := (g.nodes.map (·.path))[i]?

/-- Every file has one node, and its edges lead to different nodes, each to one of another file and with the base
name of that file. -/
structure Tidy (g : Graph) : Prop where
  paths : (g.nodes.map (·.path)).Nodup
  single : ∀ v, (g.successors v).Nodup
  labels : ∀ v, ∀ edge ∈ g.edges v, ∃ target, g.pathAt? edge.target = some target ∧ g.pathAt? v ≠ some target ∧
    edge.label = Path.base target

theorem pathAt?_of_find? {i : Nat} (found : g.find? path = some i) : g.pathAt? i = some path := by
  rw [find?_eq_findIdx?] at found
  obtain ⟨inside,here,-⟩ := List.findIdx?_eq_some_iff_getElem.mp found
  rw [pathAt?,List.getElem?_eq_getElem inside,beq_iff_eq.mp here]

/-- Where every file has one node, a file is found at the number that has its path. -/
theorem find?_of_pathAt? (distinct : (g.nodes.map (·.path)).Nodup) {i : Nat} (here : g.pathAt? i = some path) :
    g.find? path = some i := by
  obtain ⟨inside,same⟩ := List.getElem?_eq_some_iff.mp here
  rw [find?_eq_findIdx?,List.findIdx?_eq_some_iff_getElem]
  refine ⟨inside,beq_iff_eq.mpr same,fun j earlier => ?_⟩
  rw [beq_iff_eq,← same]
  exact List.pairwise_iff_getElem.mp distinct j i (Nat.lt_trans earlier inside) inside earlier

theorem pathAt?_eq_pathOf {v : Nat} (inside : v < g.size) : g.pathAt? v = some (g.pathOf v) := by
  have node : g.nodes[v]? = some g.nodes[v] := List.getElem?_eq_getElem inside
  simp [pathAt?,pathOf,node]

theorem pathOf_eq {v : Nat} (found : g.find? path = some v) : g.pathOf v = path :=
  Option.some.inj ((pathAt?_eq_pathOf (find?_lt found)).symm.trans (pathAt?_of_find? found))

theorem pathOf_injective (distinct : (g.nodes.map (·.path)).Nodup) {v w : Nat} (inside : v < g.size)
    (inside' : w < g.size) (same : g.pathOf v = g.pathOf w) : v = w := by
  have first := find?_of_pathAt? distinct (pathAt?_eq_pathOf inside)
  have second := find?_of_pathAt? distinct (pathAt?_eq_pathOf inside')
  exact Option.some.inj (first.symm.trans (same ▸ second))

theorem linked_of_successor (distinct : (g.nodes.map (·.path)).Nodup) {v w : Nat} (edge : w ∈ g.successors v)
    (origin : g.pathAt? v = some source) (goal : g.pathAt? w = some target) : g.Linked source target := by
  refine ⟨v,w,find?_of_pathAt? distinct origin,find?_of_pathAt? distinct goal,?_⟩
  rwa [hasEdge,List.contains_iff_mem]

theorem Tidy.find?_eq (tidy : g.Tidy) {i : Nat} (here : g.pathAt? i = some path) : g.find? path = some i :=
  find?_of_pathAt? tidy.paths here

theorem Tidy.linked (tidy : g.Tidy) {v : Nat} {edge : Edge} (member : edge ∈ g.edges v)
    (origin : g.pathAt? v = some source) (goal : g.pathAt? edge.target = some target) : g.Linked source target :=
  linked_of_successor tidy.paths (List.mem_map_of_mem member) origin goal

theorem Tidy.empty : ({} : Graph).Tidy :=
  ⟨.nil,fun _ => .nil,fun _ _ member => absurd member List.not_mem_nil⟩

theorem lt_size_of_mem_edges {v : Nat} {edge : Edge} (member : edge ∈ g.edges v) : v < g.size := by
  rcases Nat.lt_or_ge v g.size with inside | outside
  · exact inside
  · rw [edges,List.getElem?_eq_none outside] at member
    cases member

theorem pathAt?_addNode {v : Nat} (inside : v < g.size) (path : String) :
    (g.addNode path).2.pathAt? v = g.pathAt? v := by
  unfold addNode
  split
  · rfl
  · simp only [pathAt?,List.map_append]
    rw [List.getElem?_append_left (by simpa [size] using inside)]

theorem Tidy.addNode (tidy : g.Tidy) (path : String) : (g.addNode path).2.Tidy := by
  refine ⟨nodup_paths_addNode tidy.paths path,fun v => by rw [successors_addNode]; exact tidy.single v,?_⟩
  intro v edge member
  rw [edges_addNode] at member
  obtain ⟨target,goal,other,label⟩ := tidy.labels v edge member
  have inside : edge.target < g.size := by simpa [size] using (List.getElem?_eq_some_iff.mp goal).1
  exact ⟨target,(pathAt?_addNode inside path).trans goal,
    by rwa [pathAt?_addNode (lt_size_of_mem_edges member)],label⟩

theorem Tidy.addEdge (tidy : g.Tidy) {i j : Nat} (origin : g.find? source = some i) (goal : g.find? target = some j)
    (other : target ≠ source) : (g.addEdge i j (Path.base target)).2.Tidy := by
  have same := paths_addEdge g i j (Path.base target)
  have files : ∀ v, (g.addEdge i j (Path.base target)).2.pathAt? v = g.pathAt? v := by
    intro v
    rw [pathAt?,pathAt?,same]
  have edges := edges_addEdge (find?_lt origin) (find?_lt goal) (Path.base target)
  refine ⟨same ▸ tidy.paths,fun v => ?_,fun v edge member => ?_⟩
  · exact nodup_successors_addEdge (find?_lt origin) (find?_lt goal) (Path.base target) (tidy.single v)
  · rw [files,files]
    rw [edges v] at member
    split at member
    · rename_i new
      rcases List.mem_append.mp member with old | last
      · exact tidy.labels v edge old
      · obtain rfl := List.mem_singleton.mp last
        refine ⟨target,pathAt?_of_find? goal,?_,rfl⟩
        rw [new.1,pathAt?_of_find? origin]
        exact fun equal => other (Option.some.inj equal).symm
    · exact tidy.labels v edge member

theorem Tidy.connect (tidy : g.Tidy) (other : target ≠ source) : (g.connect source target).Tidy :=
  ((tidy.addNode source).addNode target).addEdge (find?_addNode_mono (find?_addNode_self g source) target)
    (find?_addNode_self _ target) other

theorem Tidy.connectAll (tidy : g.Tidy) {pairs : List (String × String)} (other : ∀ pair ∈ pairs, pair.2 ≠ pair.1) :
    (g.connectAll pairs).Tidy := by
  induction pairs generalizing g with
  | nil => exact tidy
  | cons pair pairs ih =>
    rw [List.forall_mem_cons] at other
    exact ih (tidy.connect other.1) other.2

theorem linked_connectAll (closed : g.Closed) (pairs : List (String × String)) (source target : String) :
    (g.connectAll pairs).Linked source target ↔ g.Linked source target ∨ (source,target) ∈ pairs := by
  induction pairs generalizing g with
  | nil => simp [connectAll]
  | cons pair pairs ih =>
    obtain ⟨a,b⟩ := pair
    have later := ih (connect_closed closed a b)
    simp only [connectAll] at later
    simp only [connectAll,List.foldl_cons,later,linked_connect closed,List.mem_cons,Prod.mk.injEq,or_assoc]

theorem connectAll_closed (closed : g.Closed) (pairs : List (String × String)) : (g.connectAll pairs).Closed := by
  induction pairs generalizing g with
  | nil => exact closed
  | cons pair pairs ih => exact ih (connect_closed closed pair.1 pair.2)

/-- Links leave a graph alone exactly when it has all of them. -/
theorem connectAll_eq_self_iff (closed : g.Closed) (pairs : List (String × String)) :
    g.connectAll pairs = g ↔ ∀ pair ∈ pairs, g.Linked pair.1 pair.2 := by
  constructor
  · intro same pair member
    have linked := (linked_connectAll closed pairs pair.1 pair.2).mpr (.inr member)
    rwa [same] at linked
  · intro linked
    induction pairs with
    | nil => rfl
    | cons pair pairs ih =>
      have here : g.connect pair.1 pair.2 = g := connect_eq_self (linked pair (List.mem_cons_self ..))
      simp only [connectAll,List.foldl_cons,here]
      exact ih fun other member => linked other (List.mem_cons_of_mem _ member)

end Depends.Graph
