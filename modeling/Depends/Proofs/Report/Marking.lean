import Depends.Proofs.Graph.Metrics
import Depends.Proofs.Text.Digits
import Depends.Proofs.Text.Joined
import Depends.Report.Diagram.Dot
import Depends.Report.Diagram.Mermaid
import Depends.Report.Diagram.PlantUml
import Depends.Report.Diagram.Tsv

/-!
The marks of the diagrams and of the edge table. Each of them is the drawing with the marks of the highlight, and the
text of a drawing shows which marks it has (`dotDrawing_eq_iff` and the like). The highlight of the strong components
has the files that lie on cycles and the edges whose targets lead back to their sources (`node_eq_true`,
`edge_eq_true`), so these are what every text marks (`marks_cycles`).
-/
namespace Depends.Report

variable {g : Graph} {c v w : Nat}

/-! ### The highlight of the strong components -/

/-- The strong components as the drawings take them, with integers for the numbers of nodes. -/
def strongComponents (g : Graph) : List (List Int) := g.components.map fun members => members.map Int.ofNat

/-- The highlight of the strong components. -/
def strongHighlight (g : Graph) : Highlight := .ofComponents g (strongComponents g)

theorem node?_natCast (inside : v < g.size) : g.node? v = some v := by
  simp [Graph.node?,inside]

theorem isCyclic_strong (closed : g.Closed) {members : List Nat} (listed : members ∈ g.components) :
    Highlight.isCyclic g (members.map Int.ofNat) = g.isCyclic members := by
  match members with
  | [] => rfl
  | [only] =>
    have inside := Graph.lt_size_of_mem_component closed listed (List.mem_singleton.mpr rfl)
    simp [Highlight.isCyclic,Graph.isCyclic,node?_natCast inside]
  | first :: second :: rest => simp [Highlight.isCyclic,Graph.isCyclic]

/-- What the highlight lists for one component. -/
theorem filterMap_strong (closed : g.Closed) {members : List Nat} (listed : members ∈ g.components) (c : Nat) :
    ((members.map Int.ofNat).filterMap fun v => (g.node? v).map (·,c)) = members.map (·,c) := by
  rw [List.filterMap_map,← List.filterMap_eq_map]
  refine List.filterMap_congr fun v member => ?_
  simp [node?_natCast (Graph.lt_size_of_mem_component closed listed member)]

/-- The highlight lists the members of the components with a cycle, each with the number of its component. -/
theorem mem_nodes_component (closed : g.Closed) :
    (v,c) ∈ (strongHighlight g).nodes ↔
      ∃ bound : c < g.components.length, g.isCyclic g.components[c] = true ∧ v ∈ g.components[c] := by
  have count : (strongComponents g).length = g.components.length := List.length_map _
  have part : ∀ (i : Nat) (bound : i < g.components.length),
      (strongComponents g).getD i [] = g.components[i].map Int.ofNat := fun i bound => by
    simp [strongComponents,List.getD_eq_getElem?_getD,bound]
  simp only [strongHighlight,Highlight.ofComponents,count,List.mem_reverse,List.mem_flatMap,List.mem_range]
  constructor
  · rintro ⟨i,bound,chosen⟩
    have listed := List.getElem_mem bound
    simp only [part i bound,isCyclic_strong closed listed,filterMap_strong closed listed] at chosen
    split at chosen
    · rename_i cyclic
      obtain ⟨u,member,same⟩ := List.mem_map.mp chosen
      cases same
      exact ⟨bound,cyclic,member⟩
    · cases chosen
  · rintro ⟨bound,cyclic,member⟩
    have listed := List.getElem_mem bound
    refine ⟨c,bound,?_⟩
    simp only [part c bound,isCyclic_strong closed listed,filterMap_strong closed listed,if_pos cyclic]
    exact List.mem_map_of_mem member

/-- These are the files that lie on cycles. -/
theorem mem_nodes (closed : g.Closed) :
    (v,c) ∈ (strongHighlight g).nodes ↔ v < g.size ∧ g.Circles v ∧ Graph.componentOf g.components v = c := by
  rw [mem_nodes_component closed]
  constructor
  · rintro ⟨bound,cyclic,member⟩
    have listed := List.getElem_mem bound
    have inside := Graph.lt_size_of_mem_component closed listed member
    rw [← Graph.onCycle_eq closed listed member,Graph.onCycle_iff closed inside] at cyclic
    exact ⟨inside,cyclic,(Graph.componentOf_eq_iff closed bound).mpr member⟩
  · rintro ⟨inside,cyclic,rfl⟩
    obtain ⟨bound,member⟩ := Graph.componentOf_spec closed inside
    have listed := List.getElem_mem bound
    rw [← Graph.onCycle_iff closed inside,Graph.onCycle_eq closed listed member] at cyclic
    exact ⟨bound,cyclic,member⟩

theorem lookup_nodes (closed : g.Closed) :
    (strongHighlight g).nodes.lookup v = some c ↔
      v < g.size ∧ g.Circles v ∧ Graph.componentOf g.components v = c := by
  rw [← mem_nodes closed]
  constructor
  · intro found
    obtain ⟨front,back,split,-⟩ := List.lookup_eq_some_iff.mp found
    simp [split]
  · intro listed
    have known : ((strongHighlight g).nodes.lookup v).isSome :=
      List.lookup_isSome_iff.mpr ⟨_,listed,by simp⟩
    obtain ⟨c',found⟩ := Option.isSome_iff_exists.mp known
    obtain ⟨front,back,split,-⟩ := List.lookup_eq_some_iff.mp found
    have here : (v,c') ∈ (strongHighlight g).nodes := by simp [split]
    rw [found,← ((mem_nodes closed).mp here).2.2,← ((mem_nodes closed).mp listed).2.2]

/-- The files that lie on cycles are highlighted. -/
theorem node_eq_true (closed : g.Closed) (inside : v < g.size) :
    (strongHighlight g).node v = true ↔ g.Circles v := by
  simp [Highlight.node,Option.isSome_iff_exists,lookup_nodes closed,inside]

/-- The edges whose targets lead back to their sources are highlighted. -/
theorem edge_eq_true (closed : g.Closed) (edge : w ∈ g.successors v) :
    (strongHighlight g).edge v w = true ↔ g.Reaches w v := by
  have inside := Graph.lt_size_of_successor edge
  have inside' := closed v w edge
  have both : (strongHighlight g).edge v w = true ↔
      g.Circles v ∧ g.Circles w ∧ g.Mutual v w := by
    rw [← Graph.componentOf_eq_componentOf closed inside]
    unfold Highlight.edge
    split
    · rename_i here there
      obtain ⟨-,circle,rfl⟩ := (lookup_nodes closed).mp here
      obtain ⟨-,circle',rfl⟩ := (lookup_nodes closed).mp there
      rw [beq_iff_eq]
      exact ⟨fun same => ⟨circle,circle',same.symm⟩,fun joined => joined.2.2.symm⟩
    · rename_i unlisted
      simp only [Bool.false_eq_true,false_iff,not_and]
      intro circle circle' same
      have here := (lookup_nodes closed).mpr ⟨inside,circle,rfl⟩
      have there := (lookup_nodes closed).mpr ⟨inside',circle',rfl⟩
      exact unlisted _ _ here there
  rw [both]
  constructor
  · exact fun joined => joined.2.2.2
  · intro back
    exact ⟨.head' edge back,.tail' back edge,.single edge,back⟩

/-! ### What a text shows of its marks -/

theorem mem_numbered {node : GraphNode} : (v,node) ∈ numbered g ↔ g.nodes[v]? = some node := by
  simp only [numbered,List.mem_iff_getElem?,List.getElem?_zip_eq_some]
  constructor
  · rintro ⟨i,number,here⟩
    obtain ⟨inside,rfl⟩ := List.getElem?_eq_some_iff.mp number
    rwa [List.getElem_range]
  · intro here
    obtain ⟨inside,-⟩ := List.getElem?_eq_some_iff.mp here
    exact ⟨v,List.getElem?_range inside,here⟩

theorem mem_links : (v,w) ∈ links g ↔ w ∈ g.successors v := by
  simp only [links,Graph.mem_successors,List.mem_flatMap,List.mem_map,Prod.exists,mem_numbered]
  constructor
  · rintro ⟨i,node,found,edge,member,same⟩
    cases same
    exact ⟨node,found,edge,member,rfl⟩
  · rintro ⟨node,found,edge,member,target⟩
    exact ⟨v,node,found,edge,member,by rw [target]⟩

theorem fileLines_eq_iff (line : Nat → Bool → GraphNode → String)
    (apart : ∀ v node, Text.Apart (line v true node) (line v false node)) {file file' : Nat → Bool}
    {rest rest' : String} :
    fileLines g (fun v => line v (file v)) ++ rest = fileLines g (fun v => line v (file' v)) ++ rest' ↔
      (∀ v < g.size, file v = file' v) ∧ rest = rest' := by
  have shown := Text.join_choices_eq_iff (fun (entry : Nat × GraphNode) marked => line entry.1 marked entry.2)
    (fun entry => apart entry.1 entry.2) (numbered g) (fun entry => file entry.1) (fun entry => file' entry.1) rest
    rest'
  refine shown.trans (and_congr_left fun _ => ⟨fun same v inside => ?_,fun same entry member => ?_⟩)
  · exact same (v,g.nodes[v]) (mem_numbered.mpr (List.getElem?_eq_getElem inside))
  · exact same entry.1 (List.getElem?_eq_some_iff.mp (mem_numbered.mp member)).1

theorem linkLines_eq_iff (line : Nat → Nat → Bool → String)
    (apart : ∀ v w, Text.Apart (line v w true) (line v w false)) {edge edge' : Nat → Nat → Bool}
    {rest rest' : String} :
    linkLines g (fun v w => line v w (edge v w)) ++ rest = linkLines g (fun v w => line v w (edge' v w)) ++ rest' ↔
      (∀ v, ∀ w ∈ g.successors v, edge v w = edge' v w) ∧ rest = rest' := by
  have shown := Text.join_choices_eq_iff (fun (link : Nat × Nat) marked => line link.1 link.2 marked)
    (fun link => apart link.1 link.2) (links g) (fun link => edge link.1 link.2) (fun link => edge' link.1 link.2)
    rest rest'
  refine shown.trans (and_congr_left fun _ => ⟨fun same v w member => ?_,fun same link member => ?_⟩)
  · exact same (v,w) (mem_links.mpr member)
  · exact same link.1 link.2 (mem_links.mp member)

theorem apart_dotFile (id : String) (node : GraphNode) : Text.Apart (dotFile id true node) (dotFile id false node) := by
  unfold dotFile
  exact .inside (Text.apart_of_not_continued (by decide) (by decide)) _

theorem apart_dotLink (source target : String) :
    Text.Apart (dotLink source target true) (dotLink source target false) := by
  unfold dotLink
  exact .inside (Text.apart_of_not_continued (by decide) (by decide)) _

theorem apart_plantUmlFile (id : String) (node : GraphNode) :
    Text.Apart (plantUmlFile id true node) (plantUmlFile id false node) := by
  unfold plantUmlFile
  exact .inside (Text.apart_of_not_continued (by decide) (by decide)) _

theorem apart_plantUmlLink (source target : String) :
    Text.Apart (plantUmlLink source target true) (plantUmlLink source target false) := by
  have arrows : Text.Apart " -[#DC2626,bold]-> " " --> " := Text.apart_of_not_continued (by decide) (by decide)
  exact ((arrows.after source).before target target).before "\n" "\n"

theorem apart_tsvEdge (node : GraphNode) (e : Edge) : Text.Apart (tsvEdge g true node e) (tsvEdge g false node e) := by
  have values : Text.Apart (truth true) (truth false) := Text.apart_of_not_continued (by decide) (by decide)
  have last : ∀ (cells : List String), cells ≠ [] →
      Text.Apart (tsvLine (cells ++ [truth true])) (tsvLine (cells ++ [truth false])) := by
    intro cells some
    simp only [tsvLine,Text.join,String.intercalate_append_of_ne_nil some (List.cons_ne_nil _ _),
      String.intercalate_singleton]
    exact (values.after _).before "\n" "\n"
  exact last [_,_,_,_,_] (List.cons_ne_nil _ _)

/-- What the text of a digraph shows. -/
theorem dotDrawing_eq_iff {file file' : Nat → Bool} {edge edge' : Nat → Nat → Bool} :
    dotDrawing g file edge = dotDrawing g file' edge' ↔
      (∀ v < g.size, file v = file' v) ∧ ∀ v, ∀ w ∈ g.successors v, edge v w = edge' v w := by
  let id (v : Nat) := (graphIdentifiers g).getD v ""
  simp only [dotDrawing,String.append_assoc,String.append_right_inj]
  rw [fileLines_eq_iff (fun v marked node => dotFile (id v) marked node) fun v node => apart_dotFile (id v) node]
  rw [String.append_right_inj]
  rw [linkLines_eq_iff (fun v w marked => dotLink (id v) (id w) marked) fun v w => apart_dotLink (id v) (id w)]
  simp only [and_true]

theorem plantUmlDrawing_eq_iff {file file' : Nat → Bool} {edge edge' : Nat → Nat → Bool} :
    plantUmlDrawing g file edge = plantUmlDrawing g file' edge' ↔
      (∀ v < g.size, file v = file' v) ∧ ∀ v, ∀ w ∈ g.successors v, edge v w = edge' v w := by
  let id (v : Nat) := (graphIdentifiers g).getD v ""
  simp only [plantUmlDrawing,String.append_assoc,String.append_right_inj]
  rw [fileLines_eq_iff (fun v marked node => plantUmlFile (id v) marked node)
    fun v node => apart_plantUmlFile (id v) node]
  rw [String.append_right_inj]
  rw [linkLines_eq_iff (fun v w marked => plantUmlLink (id v) (id w) marked)
    fun v w => apart_plantUmlLink (id v) (id w)]
  simp only [and_true]

theorem apart_mermaidFile (id : String) (node : GraphNode) :
    Text.Apart (mermaidFile id true node) (mermaidFile id false node) := by
  have classes : Text.Apart "cycle" "file" := Text.apart_of_not_continued (by decide) (by decide)
  exact (classes.after _).before "\n" "\n"

theorem comma_not_mem_toString (n : Nat) : ',' ∉ (toString n).toList := by
  intro comma
  exact absurd (Digits.isDigit_of_mem_toString comma) (by decide)

/-- Positions can be read back from the line that gives them their style. -/
theorem linkStyle_inj {positions positions' : List Nat} :
    linkStyle positions = linkStyle positions' ↔ positions = positions' := by
  refine ⟨fun same => ?_,fun same => by rw [same]⟩
  have plain : ∀ {positions : List Nat}, ∀ text ∈ positions.map toString, ',' ∉ text.toList := by
    intro positions text member
    obtain ⟨n,-,rfl⟩ := List.mem_map.mp member
    exact comma_not_mem_toString n
  match positions,positions' with
  | [],[] => rfl
  | [],n :: rest => simp [linkStyle,String.append_assoc] at same
  | n :: rest,[] => simp [linkStyle,String.append_assoc] at same
  | n :: rest,n' :: rest' =>
    simp only [linkStyle,List.isEmpty_cons,Bool.false_eq_true,↓reduceIte,String.append_left_inj,
      String.append_right_inj] at same
    have texts := (Text.join_inj ',' (by simp) (by simp) plain plain).mp same
    exact (List.map_inj_right Digits.toString_injective).mp texts

theorem mermaidDrawing_eq_iff {file file' : Nat → Bool} {positions positions' : List Nat} :
    mermaidDrawing g file positions = mermaidDrawing g file' positions' ↔
      (∀ v < g.size, file v = file' v) ∧ positions = positions' := by
  let id (v : Nat) := (graphIdentifiers g).getD v ""
  simp only [mermaidDrawing,String.append_assoc,String.append_right_inj]
  rw [fileLines_eq_iff (fun v marked node => mermaidFile (id v) marked node)
    fun v node => apart_mermaidFile (id v) node]
  rw [String.append_right_inj,linkStyle_inj]

/-- The edges with their files, in the order of the lines of the table. -/
def tableRows (g : Graph) : List (Nat × GraphNode × Edge) :=
  (numbered g).flatMap fun (i,node) => node.edges.map fun e => (i,node,e)

theorem mem_tableRows {node : GraphNode} {e : Edge} :
    (v,node,e) ∈ tableRows g ↔ g.nodes[v]? = some node ∧ e ∈ node.edges := by
  simp only [tableRows,List.mem_flatMap,List.mem_map,Prod.exists,mem_numbered]
  constructor
  · rintro ⟨i,node,found,edge,member,same⟩
    cases same
    exact ⟨found,member⟩
  · rintro ⟨found,member⟩
    exact ⟨v,node,found,e,member,rfl⟩

theorem tsvTable_eq_iff {edge edge' : Nat → Nat → Bool} :
    tsvTable g edge = tsvTable g edge' ↔ ∀ v, ∀ w ∈ g.successors v, edge v w = edge' v w := by
  have lines : ∀ edge : Nat → Nat → Bool,
      ((numbered g).flatMap fun (i,node) => node.edges.map fun e => tsvEdge g (edge i e.target) node e) =
        (tableRows g).map fun row => tsvEdge g (edge row.1 row.2.2.target) row.2.1 row.2.2 := by
    intro edge
    simp only [tableRows,List.map_flatMap,List.map_map]
    rfl
  have shown := Text.join_choices_eq_iff
    (fun (row : Nat × GraphNode × Edge) marked => tsvEdge g marked row.2.1 row.2.2)
    (fun row => apart_tsvEdge row.2.1 row.2.2) (tableRows g) (fun row => edge row.1 row.2.2.target)
    (fun row => edge' row.1 row.2.2.target) "" ""
  simp only [String.append_empty,and_true] at shown
  rw [tsvTable,tsvTable,String.append_right_inj,lines,lines]
  refine shown.trans ⟨fun same v w member => ?_,fun same row member => ?_⟩
  · obtain ⟨node,found,e,listed,rfl⟩ := Graph.mem_successors.mp member
    exact same (v,node,e) (mem_tableRows.mpr ⟨found,listed⟩)
  · obtain ⟨found,listed⟩ := mem_tableRows.mp member
    exact same row.1 row.2.2.target (Graph.mem_successors.mpr ⟨row.2.1,found,row.2.2,listed,rfl⟩)

/-! ### The marks -/

/-- Exactly the files that lie on cycles are marked. -/
def MarksCycles (g : Graph) (file : Nat → Bool) : Prop := ∀ v < g.size, file v = true ↔ g.Circles v

/-- Exactly the edges are marked whose targets lead back to their sources. -/
def MarksReturns (g : Graph) (edge : Nat → Nat → Bool) : Prop :=
  ∀ v, ∀ w ∈ g.successors v, edge v w = true ↔ g.Reaches w v

/-- The ascending positions, among all links, of exactly those whose targets lead back to their sources. -/
def ListsReturns (g : Graph) (positions : List Nat) : Prop :=
  positions.Pairwise (· < ·) ∧ ∀ n, n ∈ positions ↔ ∃ v w, (links g)[n]? = some (v,w) ∧ g.Reaches w v

theorem node_eq_iff (closed : g.Closed) {file : Nat → Bool} :
    (∀ v < g.size, (strongHighlight g).node v = file v) ↔ MarksCycles g file := by
  refine forall_congr' fun v => forall_congr' fun inside => ?_
  rw [Bool.eq_iff_iff,node_eq_true closed inside]
  exact iff_comm

theorem edge_eq_iff (closed : g.Closed) {edge : Nat → Nat → Bool} :
    (∀ v, ∀ w ∈ g.successors v, (strongHighlight g).edge v w = edge v w) ↔ MarksReturns g edge := by
  refine forall_congr' fun v => forall_congr' fun w => forall_congr' fun member => ?_
  rw [Bool.eq_iff_iff,edge_eq_true closed member]
  exact iff_comm

theorem cycleLinks_listsReturns (closed : g.Closed) : ListsReturns g (cycleLinks g (strongHighlight g)) := by
  constructor
  · exact List.pairwise_lt_range.filter _
  · intro n
    simp only [cycleLinks,List.mem_filter,List.mem_range,Option.any_eq_true,Prod.exists]
    constructor
    · rintro ⟨-,v,w,link,marked⟩
      exact ⟨v,w,link,(edge_eq_true closed (mem_links.mp (List.mem_of_getElem? link))).mp marked⟩
    · rintro ⟨v,w,link,back⟩
      exact ⟨(List.getElem?_eq_some_iff.mp link).1,v,w,link,
        (edge_eq_true closed (mem_links.mp (List.mem_of_getElem? link))).mpr back⟩

example : cycleLinks (Graph.grown Graph.ringed) (strongHighlight (Graph.grown Graph.ringed)) = [1,2] := by decide

theorem ListsReturns.unique {positions positions' : List Nat} (lists : ListsReturns g positions)
    (lists' : ListsReturns g positions') : positions = positions' := by
  have same : positions.Perm positions' := (List.perm_ext_iff_of_nodup (lists.1.imp Nat.ne_of_lt)
    (lists'.1.imp Nat.ne_of_lt)).mpr fun n => (lists.2 n).trans (lists'.2 n).symm
  exact same.eq_of_pairwise (fun m n _ _ less more => by omega) lists.1 lists'.1

/-- In the texts of a grown graph with its strong components, exactly the files on cycles are marked, and exactly the
edges from whose targets a path leads back to their sources. A flowchart marks these edges by their positions among
its links. The metrics have one row for every file, which says the same of it. -/
theorem marks_cycles (additions : List Graph.Addition) :
    let g := Graph.grown additions
    (∀ file edge, dot g (strongComponents g) = dotDrawing g file edge ↔ MarksCycles g file ∧ MarksReturns g edge) ∧
      (∀ file edge, plantUml g (strongComponents g) = plantUmlDrawing g file edge ↔
        MarksCycles g file ∧ MarksReturns g edge) ∧
      (∀ file positions, mermaid g (strongComponents g) = mermaidDrawing g file positions ↔
        MarksCycles g file ∧ ListsReturns g positions) ∧
      (∀ edge, tsv g (strongComponents g) = tsvTable g edge ↔ MarksReturns g edge) ∧
      ∀ v path, g.pathAt? v = some path → (∃! row, row ∈ g.metrics ∧ row.path = path) ∧
        ∀ row ∈ g.metrics, row.path = path → (row.inCycle = true ↔ g.Circles v) := by
  intro g
  have closed := Graph.grown_closed additions
  refine ⟨fun file edge => ?_,fun file edge => ?_,fun file positions => ?_,fun edge => ?_,fun v path here => ?_⟩
  · exact dotDrawing_eq_iff.trans (and_congr (node_eq_iff closed) (edge_eq_iff closed))
  · exact plantUmlDrawing_eq_iff.trans (and_congr (node_eq_iff closed) (edge_eq_iff closed))
  · refine mermaidDrawing_eq_iff.trans (and_congr (node_eq_iff closed) ?_)
    refine ⟨fun same => ?_,(cycleLinks_listsReturns closed).unique⟩
    exact same ▸ cycleLinks_listsReturns closed
  · exact tsvTable_eq_iff.trans (edge_eq_iff closed)
  · have inside := Graph.lt_size_of_pathAt? here
    have only : ∀ row, row ∈ g.metrics ∧ row.path = path ↔ row = g.row v := fun row =>
      Graph.mem_metrics_path (Graph.grown_proper additions) here
    refine ⟨⟨g.row v,(only _).mpr rfl,fun row listed => (only row).mp listed⟩,fun row listed same => ?_⟩
    rw [(only row).mp ⟨listed,same⟩]
    exact (Graph.row_describes (Graph.grown_proper additions) inside).inCycle

end Depends.Report
