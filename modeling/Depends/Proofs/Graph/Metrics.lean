import Depends.Proofs.Graph.Condensation
import Depends.Proofs.Graph.Growth
import Depends.Proofs.Number.Exact
import Mathlib.Algebra.BigOperators.Ring.Finset
import Mathlib.Data.Set.Card

/-!
The position of every file in the graph. Each node has one row, whose numbers are degrees in the graph and the depth in
its condensation; the degrees of all rows add up to the number of edges, and the rows stand in strict order
(`metrics_measure`). Up to 2 ^ 50 files no step of the score is rounded (`importanceScore_eq`).
-/
namespace Depends.Graph

variable {g : Graph} {u v w : Nat}

/-! ### Degrees -/

theorem map_range_edges {β : Type} (f : List Edge → β) :
    ((List.range g.size).map fun v => f (g.edges v)) = g.nodes.map fun node => f node.edges := by
  have lists := congrArg (List.map f) (g.map_range_nodes (·.edges) [])
  rwa [List.map_map,List.map_map] at lists

/-- In a proper graph the edges to a node come one from each node that has one. -/
theorem countP_edges (proper : g.Proper) (u v : Nat) :
    (g.edges u).countP (·.target == v) = if v ∈ g.successors u then 1 else 0 := by
  rw [← List.Nodup.count (proper.single u),List.count,successors,List.countP_map]
  rfl

theorem fanIn_eq_card (proper : g.Proper) (v : Nat) :
    g.fanIn v = ((Finset.range g.size).filter fun u => v ∈ g.successors u).card := by
  rw [Finset.card_filter]
  simp only [← countP_edges proper]
  exact congrArg List.sum (map_range_edges fun edges => edges.countP (·.target == v)).symm

theorem fanOut_eq_card (proper : g.Proper) (v : Nat) :
    (g.edges v).length = ((Finset.range g.size).filter fun w => w ∈ g.successors v).card := by
  have targets : (Finset.range g.size).filter (fun w => w ∈ g.successors v) = (g.successors v).toFinset := by
    ext w
    simpa using fun edge => proper.closed v w edge
  rw [targets,List.toFinset_card_of_nodup (proper.single v),successors,List.length_map]

/-- The number of edges to a node is that of the nodes with an edge to it. -/
theorem fanIn_eq_ncard (proper : g.Proper) (v : Nat) : g.fanIn v = { u | v ∈ g.successors u }.ncard := by
  rw [fanIn_eq_card proper,← Set.ncard_coe_finset]
  congr 1
  ext u
  simpa using fun edge => lt_size_of_successor edge

theorem fanOut_eq_ncard (proper : g.Proper) (v : Nat) : (g.edges v).length = { w | w ∈ g.successors v }.ncard := by
  rw [fanOut_eq_card proper,← Set.ncard_coe_finset]
  congr 1
  ext w
  simpa using fun edge => proper.closed v w edge

theorem sum_fanOut (proper : g.Proper) : ((List.range g.size).map fun v => (g.edges v).length).sum = g.edgeCount := by
  rw [proper.counted,map_range_edges List.length]

/-- Every edge is counted at its target as it is at its source. -/
theorem sum_fanIn (proper : g.Proper) : ((List.range g.size).map g.fanIn).sum = g.edgeCount :=
  calc ((List.range g.size).map g.fanIn).sum
    _ = ∑ v ∈ Finset.range g.size, g.fanIn v := rfl
    _ = ∑ v ∈ Finset.range g.size, ∑ u ∈ Finset.range g.size, if v ∈ g.successors u then 1 else 0 := by
      simp only [fanIn_eq_card proper,Finset.card_filter]
    _ = ∑ u ∈ Finset.range g.size, ∑ v ∈ Finset.range g.size, if v ∈ g.successors u then 1 else 0 := Finset.sum_comm
    _ = ∑ u ∈ Finset.range g.size, (g.edges u).length := by
      simp only [fanOut_eq_card proper,Finset.card_filter]
    _ = g.edgeCount := sum_fanOut proper

theorem fanIn_le_size (proper : g.Proper) (v : Nat) : g.fanIn v ≤ g.size := by
  rw [fanIn_eq_card proper]
  exact (Finset.card_filter_le _ _).trans_eq (Finset.card_range _)

theorem fanOut_le_size (proper : g.Proper) (v : Nat) : (g.edges v).length ≤ g.size := by
  rw [fanOut_eq_card proper]
  exact (Finset.card_filter_le _ _).trans_eq (Finset.card_range _)

/-! ### The score -/

/-- The score is exact as long as its double has at most 53 bits. -/
theorem importanceScore_eq (fanIn fanOut depth : Nat) (inCycle : Bool)
    (few : 4 * fanIn + 2 * fanOut + depth + 20 < 2 ^ 53) :
    importanceScore fanIn fanOut depth inCycle = 2 * fanIn + fanOut + depth / 2 + if inCycle then 10 else 0 := by
  -- Every step gives half of a natural number.
  have whole : ∀ {x : Rat} (k : Nat), x = k / 2 → k < 2 ^ 53 → Number.nearest x = x := by
    intro x k half small
    exact Number.nearest_of_fits (half ▸ Number.fits_half small)
  have narrow : Number.wrap64 (fanIn * 2) = fanIn * 2 := by
    rw [Number.wrap64,Int.bmod_eq_of_le] <;> omega
  have incoming : Number.nearest ((fanIn * 2 : Int) : Rat) = (fanIn * 2 : Int) :=
    whole (4 * fanIn) (by push_cast; ring) (by omega)
  have outgoing : Number.nearest ((fanOut : Int) : Rat) = (fanOut : Int) :=
    whole (2 * fanOut) (by push_cast; ring) (by omega)
  have deep : Number.nearest ((depth : Int) : Rat) = (depth : Int) :=
    Number.nearest_of_fits (Number.fits_natCast (by omega))
  have edges : Number.nearest ((fanIn * 2 : Int) + (fanOut : Int)) = (fanIn * 2 : Int) + (fanOut : Int) :=
    whole (4 * fanIn + 2 * fanOut) (by push_cast; ring) (by omega)
  have score : Number.nearest ((fanIn * 2 : Int) + (fanOut : Int) + (depth : Int) / 2) =
      (fanIn * 2 : Int) + (fanOut : Int) + (depth : Int) / 2 :=
    whole (4 * fanIn + 2 * fanOut + depth) (by push_cast; ring) (by omega)
  have raised : Number.nearest ((fanIn * 2 : Int) + (fanOut : Int) + (depth : Int) / 2 + 10) =
      (fanIn * 2 : Int) + (fanOut : Int) + (depth : Int) / 2 + 10 :=
    whole (4 * fanIn + 2 * fanOut + depth + 20) (by push_cast; ring) (by omega)
  simp only [importanceScore,narrow,incoming,outgoing,deep,edges,score,raised]
  cases inCycle with
  | true =>
    simp only [↓reduceIte]
    push_cast
    ring
  | false =>
    simp only [Bool.false_eq_true,↓reduceIte]
    push_cast
    ring

/-! ### Rows -/

/-- The row of a node. -/
def row (g : Graph) (v : Nat) : FileMetrics :=
  { path := g.pathOf v, name := (g.nodes[v]?.map (·.name)).getD "", fanIn := g.fanIn v, fanOut := (g.edges v).length
    depth := g.depthOf v, inCycle := g.onCycle v, component := componentOf g.components v
    importance := importanceScore (g.fanIn v) (g.edges v).length (g.depthOf v) (g.onCycle v) }

theorem metrics_eq : g.metrics = ((List.range g.size).map g.row).mergeSort FileMetrics.precedes := rfl

/-- What a row says about a node. -/
structure Describes (g : Graph) (v : Nat) (row : FileMetrics) : Prop where
  path : g.pathAt? v = some row.path
  name : row.name = Path.base row.path
  fanIn : row.fanIn = { u | v ∈ g.successors u }.ncard
  fanOut : row.fanOut = { w | w ∈ g.successors v }.ncard
  depth : ∃ depth : Nat, row.depth = depth ∧ IsGreatest (g.descents v) depth
  bottom : row.depth = 0 ↔ ∀ u, g.Mutual v u → ∀ w ∈ g.successors u, g.Mutual v w
  inCycle : row.inCycle = true ↔ g.Circles v
  importance : row.importance = importanceScore row.fanIn row.fanOut row.depth row.inCycle

theorem row_describes (proper : g.Proper) (inside : v < g.size) : g.Describes v (g.row v) where
  path := pathAt?_eq_pathOf inside
  name := by
    have node : g.nodes[v]? = some g.nodes[v] := List.getElem?_eq_getElem inside
    simp [row,pathOf,node,GraphNode.name]
  fanIn := congrArg Nat.cast (fanIn_eq_ncard proper v)
  fanOut := congrArg Nat.cast (fanOut_eq_ncard proper v)
  depth := ⟨g.depthOf v,rfl,isGreatest_depthOf proper.closed inside⟩
  bottom := Int.natCast_eq_zero.trans (depthOf_eq_zero proper.closed inside)
  inCycle := onCycle_iff proper.closed inside
  importance := rfl

theorem mem_metrics {m : FileMetrics} : m ∈ g.metrics ↔ ∃ v < g.size, g.row v = m := by
  rw [metrics_eq,List.mem_mergeSort,List.mem_map]
  simp only [List.mem_range]

/-- A file has one row. -/
theorem mem_metrics_path (proper : g.Proper) {path : String} (here : g.pathAt? v = some path) {m : FileMetrics} :
    m ∈ g.metrics ∧ m.path = path ↔ m = g.row v := by
  have inside := lt_size_of_pathAt? here
  have own : (g.row v).path = path := Option.some.inj ((row_describes proper inside).path.symm.trans here)
  constructor
  · rintro ⟨listed,same⟩
    obtain ⟨u,inside',rfl⟩ := mem_metrics.mp listed
    have there : g.pathAt? u = g.pathAt? v := by
      rw [here,(row_describes proper inside').path,same]
    obtain rfl := (List.getElem?_inj (by simpa [size] using inside') proper.paths).mp there
    rfl
  · rintro rfl
    exact ⟨mem_metrics.mpr ⟨v,inside,rfl⟩,own⟩

theorem map_metrics_perm {β : Type} (f : FileMetrics → β) :
    (g.metrics.map f).Perm ((List.range g.size).map fun v => f (g.row v)) := by
  have perm := (List.mergeSort_perm ((List.range g.size).map g.row) FileMetrics.precedes).map f
  rwa [List.map_map] at perm

/-- The sum of a column is that of its numbers over the nodes. -/
theorem sum_metrics (column : FileMetrics → Int) (number : Nat → Nat) (same : ∀ v, column (g.row v) = number v) :
    (g.metrics.map column).sum = ((List.range g.size).map number).sum := by
  rw [(map_metrics_perm column).sum_eq,Nat.cast_list_sum,List.map_map]
  exact congrArg List.sum (List.map_congr_left fun v _ => same v)

/-- Rows and nodes correspond one to one. -/
theorem metrics_forall₂ (proper : g.Proper) :
    ∃ order : List Nat, order.Perm (List.range g.size) ∧ List.Forall₂ g.Describes order g.metrics := by
  refine ⟨(List.range g.size).mergeSort fun u v => (g.row u).precedes (g.row v),List.mergeSort_perm _ _,?_⟩
  rw [metrics_eq,← List.map_mergeSort (f := g.row) fun _ _ _ _ => rfl,List.forall₂_map_right_iff,List.forall₂_same]
  intro v member
  exact row_describes proper (List.mem_range.mp (List.mem_mergeSort.mp member))

/-! ### The order of rows -/

theorem precedes_iff {a b : FileMetrics} :
    a.precedes b = true ↔ b.importance < a.importance ∨ a.importance = b.importance ∧ a.path ≤ b.path := by
  unfold FileMetrics.precedes
  split
  · rename_i same
    simp [same]
  · rename_i different
    simp [different]

theorem precedes_trans {a b c : FileMetrics} (first : a.precedes b = true) (second : b.precedes c = true) :
    a.precedes c = true := by
  rw [precedes_iff] at first second ⊢
  rcases first with higher | ⟨level,before⟩
  · rcases second with next | ⟨next,-⟩
    · exact .inl (next.trans higher)
    · exact .inl (next ▸ higher)
  · rcases second with next | ⟨next,after⟩
    · exact .inl (level ▸ next)
    · exact .inr ⟨level.trans next,String.le_trans before after⟩

theorem precedes_total (a b : FileMetrics) : (a.precedes b || b.precedes a) = true := by
  rw [Bool.or_eq_true,precedes_iff,precedes_iff]
  rcases lt_trichotomy a.importance b.importance with lower | same | higher
  · exact .inr (.inl lower)
  · rcases String.le_total a.path b.path with before | after
    · exact .inl (.inr ⟨same,before⟩)
    · exact .inr (.inr ⟨same.symm,after⟩)
  · exact .inl (.inl higher)

/-- Rows with the same score have different paths, so no two rows are level. -/
theorem metrics_pairwise (proper : g.Proper) :
    g.metrics.Pairwise fun a b => b.importance < a.importance ∨ a.importance = b.importance ∧ a.path < b.path := by
  have sorted : g.metrics.Pairwise fun a b => a.precedes b = true := by
    rw [metrics_eq]
    apply List.pairwise_mergeSort
    · intro a b c
      exact precedes_trans
    · exact precedes_total
  have paths : (g.metrics.map (·.path)).Nodup := by
    refine (map_metrics_perm (·.path)).nodup_iff.mpr ?_
    have nodes : (List.range g.size).map (fun v => (g.row v).path) = g.nodes.map (·.path) := g.map_range_pathOf
    rw [nodes]
    exact proper.paths
  refine sorted.imp₂ (fun a b ordered different => ?_) (List.pairwise_map.mp paths)
  rcases precedes_iff.mp ordered with higher | ⟨level,before⟩
  · exact .inl higher
  · exact .inr ⟨level,String.not_le.mp fun after => different (String.le_antisymm before after)⟩

theorem row_importance (proper : g.Proper) (few : g.size ≤ 2 ^ 50) (inside : v < g.size) :
    (g.row v).importance =
      2 * (g.row v).fanIn + (g.row v).fanOut + (g.row v).depth / 2 + if (g.row v).inCycle then 10 else 0 := by
  have incoming := fanIn_le_size proper v
  have outgoing := fanOut_le_size proper v
  have deep := depthOf_lt_size proper.closed inside
  have score := importanceScore_eq (g.fanIn v) (g.edges v).length (g.depthOf v) (g.onCycle v) (by omega)
  simp only [row]
  rw [score]
  push_cast
  rfl

/-- In every grown graph the rows correspond to the nodes one to one, and each says what the node's path, degrees and
depth are and whether it lies on a cycle. Incoming and outgoing edges each add up to the number of edges, nodes of one
component have one depth, and the rows stand in strict order, by falling score and then by rising path. The score is
the one that the degrees, the depth and the cycle give. In a graph of at most 2 ^ 50 files, and no process has room for
a larger one, no step of it is rounded. -/
theorem metrics_measure (additions : List Addition) :
    let g := grown additions
    (∃ order : List Nat, order.Perm (List.range g.size) ∧ List.Forall₂ g.Describes order g.metrics) ∧
      (g.metrics.map (·.fanIn)).sum = g.edgeCount ∧ (g.metrics.map (·.fanOut)).sum = g.edgeCount ∧
      (∀ a ∈ g.metrics, ∀ b ∈ g.metrics, ∀ v w, g.Describes v a → g.Describes w b → g.Mutual v w → a.depth = b.depth) ∧
      (g.metrics.Pairwise fun a b => b.importance < a.importance ∨ a.importance = b.importance ∧ a.path < b.path) ∧
      (g.size ≤ 2 ^ 50 → ∀ a ∈ g.metrics,
        a.importance = 2 * a.fanIn + a.fanOut + a.depth / 2 + if a.inCycle then 10 else 0) := by
  intro g
  have proper : g.Proper := grown_proper additions
  refine ⟨metrics_forall₂ proper,?_,?_,?_,metrics_pairwise proper,?_⟩
  · exact (sum_metrics _ g.fanIn fun _ => rfl).trans (congrArg Nat.cast (sum_fanIn proper))
  · exact (sum_metrics _ (fun v => (g.edges v).length) fun _ => rfl).trans (congrArg Nat.cast (sum_fanOut proper))
  · intro a _ b _ v w first second both
    obtain ⟨n,depth,deepest⟩ := first.depth
    obtain ⟨m,depth',deepest'⟩ := second.depth
    have inside := lt_size_of_pathAt? first.path
    have unique := deepest.unique (isGreatest_depthOf proper.closed inside)
    have unique' := deepest'.unique (isGreatest_depthOf proper.closed (lt_size_of_pathAt? second.path))
    rw [depth,depth',unique,unique',depthOf_congr proper.closed inside both]
  · intro few a listed
    obtain ⟨v,inside,rfl⟩ := mem_metrics.mp listed
    exact row_importance proper few inside

end Depends.Graph
