import Depends.Proofs.Report.Marking

/-!
Reading the edge table back. As long as no path and no label has a tab or a line feed, every line of the table has six
fields, and three of them tell the edge (`readEdges?_tsv`). Two graphs with the same files therefore have the same table
only when they have the same edges (`edge_table_round_trip`).
-/
namespace Depends

variable {g g' : Graph}

/-! ### The edges of a graph by paths -/

namespace Graph

/-- An edge as the paths of both files and the label. -/
def pathEdge (g : Graph) (node : GraphNode) (e : Edge) : String × String × String :=
  (node.path, g.pathOf e.target, e.label)

/-- The edges in the order of the nodes and of the edges of each node. -/
def pathEdges (g : Graph) : List (String × String × String) :=
  g.nodes.flatMap fun node => node.edges.map (g.pathEdge node)

/-- What one node has among parts that are told apart by the path of a node. -/
theorem flatMap_of_path {α : Type} (part : GraphNode → List α) {nodes : List GraphNode} {node : GraphNode}
    (distinct : (nodes.map (·.path)).Nodup) (member : node ∈ nodes) :
    (nodes.flatMap fun other => if other.path = node.path then part other else []) = part node := by
  induction nodes with
  | nil => cases member
  | cons first nodes ih =>
    rw [List.map_cons,List.nodup_cons] at distinct
    rw [List.flatMap_cons]
    rcases List.mem_cons.mp member with rfl | later
    · have nothing : (nodes.flatMap fun other => if other.path = node.path then part other else []) = [] := by
        rw [List.flatMap_eq_nil_iff]
        intro other listed
        exact if_neg fun same => distinct.1 (List.mem_map.mpr ⟨other,listed,same⟩)
      rw [if_pos rfl,nothing,List.append_nil]
    · have apart : first.path ≠ node.path := fun same => distinct.1 (List.mem_map.mpr ⟨node,later,same.symm⟩)
      rw [if_neg apart,List.nil_append,ih distinct.2 later]

/-- The edges by paths that start at one file are those of its node. -/
theorem filter_pathEdges (distinct : (g.nodes.map (·.path)).Nodup) {node : GraphNode} (member : node ∈ g.nodes) :
    (g.pathEdges.filter fun e => e.1 == node.path) = node.edges.map (g.pathEdge node) := by
  rw [← flatMap_of_path (fun node => node.edges.map (g.pathEdge node)) distinct member,pathEdges,List.filter_flatMap]
  refine List.flatMap_congr fun other _ => ?_
  rw [List.filter_map]
  by_cases same : other.path = node.path
  · simp [pathEdge,Function.comp_def,same]
  · simp [pathEdge,Function.comp_def,same]

/-- The edges of a node, read off the edges by paths. -/
theorem edges_eq_pathEdges (proper : g.Proper) {v : Nat} (inside : v < g.size) :
    g.edges v = (g.pathEdges.filter fun e => e.1 == g.pathOf v).map fun e => ⟨(g.find? e.2.1).getD 0,e.2.2⟩ := by
  have here : g.nodes[v]? = some g.nodes[v] := List.getElem?_eq_getElem inside
  have path : g.pathOf v = g.nodes[v].path := by simp [pathOf,here]
  have edges : g.edges v = g.nodes[v].edges := by simp [Graph.edges,here]
  rw [path,filter_pathEdges proper.paths (List.getElem_mem inside),List.map_map,edges]
  refine (List.map_id _).symm.trans (List.map_congr_left fun e member => ?_)
  -- The target is found again under its path.
  have target : e.target < g.size := proper.closed v e.target (List.mem_map_of_mem (edges ▸ member))
  have found := find?_of_pathAt? proper.paths (pathAt?_eq_pathOf target)
  simp [pathEdge,found]

/-- Graphs with the same files and the same edges by paths have the same edges. -/
theorem edges_eq_of_pathEdges_eq (proper : g.Proper) (proper' : g'.Proper)
    (files : g.nodes.map (·.path) = g'.nodes.map (·.path)) (same : g.pathEdges = g'.pathEdges) (v : Nat) :
    g.edges v = g'.edges v := by
  have size : g.size = g'.size := by simpa [size] using congrArg List.length files
  rcases Nat.lt_or_ge v g.size with inside | outside
  · have path : g.pathOf v = g'.pathOf v := by
      have at_v : g.pathAt? v = g'.pathAt? v := by rw [pathAt?,pathAt?,files]
      rw [pathAt?_eq_pathOf inside,pathAt?_eq_pathOf (size ▸ inside)] at at_v
      exact Option.some.inj at_v
    rw [edges_eq_pathEdges proper inside,edges_eq_pathEdges proper' (size ▸ inside),same,path]
    simp only [find?_congr files]
  · have outside' : g'.size ≤ v := size ▸ outside
    simp only [edges,List.getElem?_eq_none outside,List.getElem?_eq_none outside']

end Graph

namespace Report

/-! ### Fields without separators -/

/-- A text that can stand in a field: no tab and no line feed. -/
structure Fits (field : String) : Prop where
  tab : '\t' ∉ field.toList
  feed : '\n' ∉ field.toList

instance (field : String) : Decidable (Fits field) :=
  decidable_of_iff ('\t' ∉ field.toList ∧ '\n' ∉ field.toList) ⟨fun ⟨a,b⟩ => ⟨a,b⟩,fun fits => ⟨fits.tab,fits.feed⟩⟩

/-- All paths and labels of a graph can stand in a field. -/
def Tabular (g : Graph) : Prop := ∀ node ∈ g.nodes, Fits node.path ∧ ∀ e ∈ node.edges, Fits e.label

instance (g : Graph) : Decidable (Tabular g) := inferInstanceAs (Decidable (∀ node ∈ g.nodes, _))

theorem mem_base {path : String} {c : Char} (member : c ∈ (Path.base path).toList) :
    c ∈ path.toList ∨ c = '.' ∨ c = '/' := by
  unfold Path.base at member
  split at member
  · exact .inr (.inl (by simpa using member))
  · dsimp only at member
    split at member
    · exact .inr (.inr (by simpa using member))
    · rw [String.toList_ofList,List.mem_reverse] at member
      have inside := (List.dropWhile_sublist _).subset ((List.takeWhile_sublist _).subset member)
      exact .inl (List.mem_reverse.mp inside)

theorem Fits.base {path : String} (fits : Fits path) : Fits (Path.base path) := by
  constructor
  · intro tab
    rcases mem_base tab with inside | same | same
    · exact fits.tab inside
    · cases same
    · cases same
  · intro feed
    rcases mem_base feed with inside | same | same
    · exact fits.feed inside
    · cases same
    · cases same

theorem fits_truth (b : Bool) : Fits (truth b) := by
  cases b <;> decide

/-! ### Reading a table -/

/-- The fields of the lines of a table. -/
def readTable (text : String) : List (List String) := (Text.split '\n' text).dropLast.map (Text.split '\t')

/-- The edge that a line of the edge table tells of: the paths of its files and its label. -/
def readEdge? : List String → Option (String × String × String)
  | [_, _, label, source, target, _] => some (source, target, label)
  | _ => none

/-- The edges that the edge table tells of, when all lines after its head have six fields. -/
def readEdges? (text : String) : Option (List (String × String × String)) := (readTable text).tail.mapM readEdge?

theorem readTable_lines {rows : List (List String)} (filled : ∀ row ∈ rows, row ≠ [])
    (fits : ∀ row ∈ rows, ∀ field ∈ row, Fits field) : readTable (Text.join "" (rows.map tsvLine)) = rows := by
  have lines : rows.map tsvLine = (rows.map (Text.join "\t")).map (· ++ String.singleton '\n') := by
    rw [List.map_map]
    rfl
  have clean : ∀ line ∈ rows.map (Text.join "\t"), '\n' ∉ line.toList := by
    rw [List.forall_mem_map]
    intro row member feed
    rcases Text.mem_join feed with between | ⟨field,listed,inside⟩
    · exact absurd between (by decide)
    · exact (fits row member field listed).feed inside
  rw [readTable,lines,Text.split_lines '\n' clean,List.dropLast_concat,List.map_map]
  refine (List.map_congr_left fun row member => ?_).trans (List.map_id _)
  exact Text.split_join '\t' (filled row member) fun field listed => (fits row member field listed).tab

/-! ### The edge table -/

/-- The fields of the line of an edge. -/
def edgeCells (g : Graph) (marked : Bool) (node : GraphNode) (e : Edge) : List String :=
  [node.name, Path.base (g.pathOf e.target), e.label, node.path, g.pathOf e.target, truth marked]

theorem tsvEdge_eq (marked : Bool) (node : GraphNode) (e : Edge) :
    tsvEdge g marked node e = tsvLine (edgeCells g marked node e) := by
  have target : ((g.nodes[e.target]?).getD { path := "" }).path = g.pathOf e.target := by
    unfold Graph.pathOf
    cases g.nodes[e.target]? <;> rfl
  rw [tsvEdge,edgeCells,← target]
  rfl

theorem fits_pathOf (tabular : Tabular g) (v : Nat) : Fits (g.pathOf v) := by
  unfold Graph.pathOf
  cases here : g.nodes[v]? with
  | none => exact ⟨by simp,by simp⟩
  | some node => exact (tabular node (List.mem_of_getElem? here)).1

theorem fits_edgeCells (tabular : Tabular g) {node : GraphNode} (listed : node ∈ g.nodes) {e : Edge}
    (member : e ∈ node.edges) (marked : Bool) : ∀ field ∈ edgeCells g marked node e, Fits field := by
  have path := (tabular node listed).1
  have label := (tabular node listed).2 e member
  have target := fits_pathOf tabular e.target
  intro field inside
  simp only [edgeCells,List.mem_cons,List.not_mem_nil,or_false] at inside
  rcases inside with rfl | rfl | rfl | rfl | rfl | rfl
  · exact path.base
  · exact target.base
  · exact label
  · exact path
  · exact target
  · exact fits_truth marked

/-- The fields of the lines below the head of the edge table. -/
def edgeRows (g : Graph) (edge : Nat → Nat → Bool) : List (List String) :=
  (tableRows g).map fun (i, node, e) => edgeCells g (edge i e.target) node e

theorem tsvTable_eq (edge : Nat → Nat → Bool) :
    tsvTable g edge = Text.join ""
      ((["From","To","Label","FromPath","ToPath","InCycle"] :: edgeRows g edge).map tsvLine) := by
  simp only [tsvTable,edgeRows,tableRows,List.map_cons,Text.join_empty_cons,List.map_flatMap,List.map_map,tsvEdge_eq]
  rfl

theorem pathEdges_eq (g : Graph) : g.pathEdges = (tableRows g).map fun (_, node, e) => g.pathEdge node e := by
  have nodes : (numbered g).map (·.2) = g.nodes := List.map_snd_zip (by simp [Graph.size])
  rw [Graph.pathEdges,← nodes,List.flatMap_map,tableRows,List.map_flatMap]
  simp only [List.map_map]
  rfl

/-- Each line tells its edge. -/
theorem mapM_edgeRows (edge : Nat → Nat → Bool) : (edgeRows g edge).mapM readEdge? = some g.pathEdges := by
  rw [pathEdges_eq,edgeRows]
  induction tableRows g with
  | nil => rfl
  | cons row rows ih =>
    rw [List.map_cons,List.mapM_cons,ih]
    rfl

theorem fits_edgeRows (tabular : Tabular g) (edge : Nat → Nat → Bool) :
    ∀ row ∈ edgeRows g edge, row ≠ [] ∧ ∀ field ∈ row, Fits field := by
  rw [edgeRows,List.forall_mem_map]
  rintro ⟨i,node,e⟩ listed
  obtain ⟨here,member⟩ := mem_tableRows.mp listed
  exact ⟨List.cons_ne_nil _ _,fits_edgeCells tabular (List.mem_of_getElem? here) member _⟩

/-- From the text of the edge table, its edges are read back by paths and labels. -/
theorem readEdges?_tsv (tabular : Tabular g) (components : List (List Int)) :
    readEdges? (tsv g components) = some g.pathEdges := by
  have rows := fits_edgeRows tabular (Highlight.ofComponents g components).edge
  have head : ∀ field ∈ ["From","To","Label","FromPath","ToPath","InCycle"], Fits field := by decide
  rw [readEdges?,tsv,tsvTable_eq,readTable_lines,List.tail_cons,mapM_edgeRows]
  · exact List.forall_mem_cons.mpr ⟨by simp,fun row listed => (rows row listed).1⟩
  · exact List.forall_mem_cons.mpr ⟨head,fun row listed => (rows row listed).2⟩

/-- Splitting the text of the edge table of a grown graph into lines and fields and dropping the head gives exactly the
edges of the graph, in order, as the paths of both files and the label, whatever components are given, as long as no
path and no label has a tab or a line feed. So graphs with the same files and the same text have the same edges. -/
theorem edge_table_round_trip (grown : g.Grown) (tabular : Tabular g) (components : List (List Int)) :
    readEdges? (tsv g components) = some g.pathEdges ∧
      ∀ {g' : Graph}, g'.Grown → Tabular g' → ∀ components', g.nodes.map (·.path) = g'.nodes.map (·.path) →
        tsv g components = tsv g' components' → ∀ v, g.edges v = g'.edges v := by
  have read := readEdges?_tsv tabular components
  refine ⟨read,fun grown' tabular' components' files same => ?_⟩
  rw [same,readEdges?_tsv tabular' components',Option.some.injEq] at read
  exact Graph.edges_eq_of_pathEdges_eq grown.proper grown'.proper files read.symm

/-- Two files that lead to each other, one of them with the path of the root, and an edge without label. -/
def slashed : List Graph.Addition := [.node "x/a.cs",.node "/",.edge 0 1 "",.edge 1 0 "a.cs"]

theorem slashed_round_trip :
    Tabular (Graph.grown slashed) ∧ readEdges? (tsv (Graph.grown slashed) [[1,0],[7]]) =
      some [("x/a.cs","/",""),("/","x/a.cs","a.cs")] := by
  have tabular : Tabular (Graph.grown slashed) := by decide
  exact ⟨tabular,(edge_table_round_trip ⟨slashed,rfl⟩ tabular [[1,0],[7]]).1.trans (by decide)⟩

end Report

end Depends
