import Depends.Graph.Impact
import Depends.Proofs.Graph.Condensation
import Depends.Proofs.Graph.Growth
import Depends.Proofs.Text.Distinct

/-!
The files that depend on a file. The search goes back over edges, from the nodes with an edge to the file on, and meets
every node that leads to it, each of them once (`spread_spreading`). So the direct dependents are the files with a link
to the file, and the transitive ones all others from which links lead to it (`impact_dependents`).
-/
namespace Depends.Graph

variable {g : Graph} {fuel i j left target : Nat} {line seen : List Nat}

theorem mem_predecessors : i ∈ g.predecessors j ↔ j ∈ g.successors i := by
  simp only [predecessors,List.mem_filter,List.mem_range,hasEdge,List.contains_iff_mem]
  exact ⟨And.right,fun edge => ⟨lt_size_of_successor edge,edge⟩⟩

theorem nodup_predecessors (g : Graph) (j : Nat) : (g.predecessors j).Nodup := List.nodup_range.filter _

/-! ### Going back over edges -/

/-- A search that has gone back from a number of nodes: what it has seen leads to the target, and so does nothing else
that has an edge to one of these nodes. -/
structure Spreading (g : Graph) (target left : Nat) (line seen : List Nat) : Prop where
  start : target ∈ seen
  distinct : seen.Nodup
  inside : ∀ i ∈ seen, i < g.size
  listed : ∀ i ∈ line, i ∈ seen
  sound : ∀ i ∈ seen, g.Reaches i target
  settled : ∀ j ∈ seen, ∀ i, j ∈ g.successors i → i ∈ seen ∨ j ∈ line
  counted : seen.length = left + line.length

/-- What a search sees that goes back from a node. -/
def fresh (g : Graph) (seen : List Nat) (j : Nat) : List Nat := (g.predecessors j).filter fun i => !seen.contains i

theorem mem_fresh : i ∈ g.fresh seen j ↔ j ∈ g.successors i ∧ i ∉ seen := by
  simp [fresh,mem_predecessors]

theorem Spreading.step (spreading : g.Spreading target left (j :: line) seen) :
    g.Spreading target (left + 1) (line ++ g.fresh seen j) (seen ++ g.fresh seen j) := by
  have known : j ∈ seen := spreading.listed j (List.mem_cons_self ..)
  refine ⟨List.mem_append_left _ spreading.start,?_,?_,?_,?_,?_,?_⟩
  · refine spreading.distinct.append ((nodup_predecessors g j).filter _) ?_
    exact fun i old new => (mem_fresh.mp new).2 old
  · intro i member
    rcases List.mem_append.mp member with old | new
    · exact spreading.inside i old
    · exact lt_size_of_successor (mem_fresh.mp new).1
  · intro i member
    rcases List.mem_append.mp member with later | new
    · exact List.mem_append_left _ (spreading.listed i (List.mem_cons_of_mem _ later))
    · exact List.mem_append_right _ new
  · intro i member
    rcases List.mem_append.mp member with old | new
    · exact spreading.sound i old
    · exact (Reaches.single (mem_fresh.mp new).1).trans (spreading.sound j known)
  · intro k member i edge
    rcases List.mem_append.mp member with old | new
    · rcases spreading.settled k old i edge with seen | waiting
      · exact .inl (List.mem_append_left _ seen)
      · rcases List.mem_cons.mp waiting with rfl | later
        · by_cases before : i ∈ seen
          · exact .inl (List.mem_append_left _ before)
          · exact .inl (List.mem_append_right _ (mem_fresh.mpr ⟨edge,before⟩))
        · exact .inr (List.mem_append_left _ later)
    · exact .inr (List.mem_append_right _ new)
  · have before := spreading.counted
    simp only [List.length_append,List.length_cons] at before ⊢
    omega

theorem spread_spreading (spreading : g.Spreading target left line seen) (enough : g.size < fuel + left) :
    ∃ left, g.Spreading target left [] (seen ++ g.spread fuel line seen) := by
  induction fuel generalizing left line seen with
  | zero =>
    have few := length_le_size spreading.distinct spreading.inside
    have counted := spreading.counted
    omega
  | succ fuel ih =>
    cases line with
    | nil =>
      rw [spread,List.append_nil]
      exact ⟨left,spreading⟩
    | cons j line =>
      have rest := ih spreading.step (by omega)
      rwa [List.append_assoc] at rest

/-- With nobody in line, everything that leads to the target has been seen. -/
theorem Spreading.mem_iff (spreading : g.Spreading target left [] seen) : i ∈ seen ↔ g.Reaches i target := by
  refine ⟨spreading.sound i,fun path => ?_⟩
  induction path using Relation.ReflTransGen.head_induction_on with
  | refl => exact spreading.start
  | head edge _ ih => exact (spreading.settled _ ih _ edge).resolve_right List.not_mem_nil

/-! ### Dependents by number -/

/-- The other nodes with an edge to a node. -/
def directNodes (g : Graph) (target : Nat) : List Nat := (g.predecessors target).filter (· != target)

/-- What the search meets when it goes back from these. -/
def transitiveNodes (g : Graph) (target : Nat) : List Nat :=
  g.spread (g.size + 1) (g.directNodes target) (target :: g.directNodes target)

theorem mem_directNodes : i ∈ g.directNodes target ↔ target ∈ g.successors i ∧ i ≠ target := by
  simp [directNodes,mem_predecessors]

theorem nodup_directNodes (g : Graph) (target : Nat) : (g.directNodes target).Nodup :=
  (nodup_predecessors g target).filter _

theorem directNodes_inside : ∀ i ∈ g.directNodes target, i < g.size :=
  fun _ member => lt_size_of_successor (mem_directNodes.mp member).1

theorem Spreading.begin (inside : target < g.size) :
    g.Spreading target 1 (g.directNodes target) (target :: g.directNodes target) where
  start := List.mem_cons_self ..
  distinct := List.nodup_cons.mpr ⟨fun member => (mem_directNodes.mp member).2 rfl,nodup_directNodes g target⟩
  inside := List.forall_mem_cons.mpr ⟨inside,directNodes_inside⟩
  listed _ member := List.mem_cons_of_mem _ member
  sound := by
    rw [List.forall_mem_cons]
    exact ⟨.refl,fun i member => .single (mem_directNodes.mp member).1⟩
  settled := by
    rw [List.forall_mem_cons]
    refine ⟨fun i edge => .inl ?_,fun j member i _ => .inr member⟩
    -- An edge of the target to itself leads to nothing new.
    by_cases own : i = target
    · exact own ▸ List.mem_cons_self ..
    · exact List.mem_cons_of_mem _ (mem_directNodes.mpr ⟨edge,own⟩)
  counted := by rw [List.length_cons,Nat.add_comm]

/-- The search ends, with nobody in line. -/
theorem dependents_spreading (inside : target < g.size) :
    ∃ left, g.Spreading target left [] (target :: g.directNodes target ++ g.transitiveNodes target) :=
  spread_spreading (.begin inside) (by omega)

theorem mem_transitiveNodes (inside : target < g.size) :
    i ∈ g.transitiveNodes target ↔ i ≠ target ∧ i ∉ g.directNodes target ∧ g.Reaches i target := by
  obtain ⟨left,spreading⟩ := dependents_spreading inside
  have apart := List.disjoint_of_nodup_append spreading.distinct
  constructor
  · intro member
    have new : i ∉ target :: g.directNodes target := fun old => apart old member
    rw [List.mem_cons,not_or] at new
    exact ⟨new.1,new.2,spreading.mem_iff.mp (List.mem_append_right _ member)⟩
  · rintro ⟨other,deeper,path⟩
    rcases List.mem_append.mp (spreading.mem_iff.mpr path) with near | far
    · rcases List.mem_cons.mp near with own | direct
      · exact absurd own other
      · exact absurd direct deeper
    · exact far

theorem nodup_transitiveNodes (inside : target < g.size) : (g.transitiveNodes target).Nodup := by
  obtain ⟨left,spreading⟩ := dependents_spreading inside
  exact spreading.distinct.of_append_right

theorem transitiveNodes_inside (inside : target < g.size) : ∀ i ∈ g.transitiveNodes target, i < g.size := by
  obtain ⟨left,spreading⟩ := dependents_spreading inside
  exact fun i member => spreading.inside i (List.mem_append_right _ member)

/-! ### Dependents by path -/

/-- The files of nodes, in ascending order. -/
def filesOf (g : Graph) (nodes : List Nat) : List String := Text.sorted (nodes.map g.pathOf)

theorem mem_filesOf (proper : g.Proper) {nodes : List Nat} (inside : ∀ i ∈ nodes, i < g.size) {file : String} :
    file ∈ g.filesOf nodes ↔ ∃ i ∈ nodes, g.find? file = some i := by
  rw [filesOf,Text.mem_sorted,List.mem_map]
  constructor
  · rintro ⟨i,member,rfl⟩
    exact ⟨i,member,find?_of_pathAt? proper.paths (pathAt?_eq_pathOf (inside i member))⟩
  · rintro ⟨i,member,found⟩
    exact ⟨i,member,pathOf_eq found⟩

theorem filesOf_pairwise (proper : g.Proper) {nodes : List Nat} (inside : ∀ i ∈ nodes, i < g.size)
    (distinct : nodes.Nodup) : (g.filesOf nodes).Pairwise (· < ·) :=
  Text.sorted_pairwise (distinct.map_on fun i member j member' same =>
    pathOf_injective proper.paths (inside i member) (inside j member') same)

theorem mem_directFiles (proper : g.Proper) {path : String} (found : g.find? path = some target) (file : String) :
    file ∈ g.filesOf (g.directNodes target) ↔ file ≠ path ∧ g.Linked file path := by
  rw [mem_filesOf proper directNodes_inside]
  constructor
  · rintro ⟨i,member,here⟩
    obtain ⟨edge,other⟩ := mem_directNodes.mp member
    refine ⟨?_,i,target,here,found,List.contains_iff_mem.mpr edge⟩
    rintro rfl
    exact other (Option.some.inj (here.symm.trans found))
  · rintro ⟨other,i,j,here,there,edge⟩
    obtain rfl : j = target := Option.some.inj (there.symm.trans found)
    refine ⟨i,mem_directNodes.mpr ⟨List.contains_iff_mem.mp edge,?_⟩,here⟩
    rintro rfl
    exact other (path_eq_of_find? here found)

theorem mem_transitiveFiles (proper : g.Proper) {path : String} (found : g.find? path = some target) (file : String) :
    file ∈ g.filesOf (g.transitiveNodes target) ↔
      file ≠ path ∧ file ∉ g.filesOf (g.directNodes target) ∧ Relation.ReflTransGen g.Linked file path := by
  have inside := find?_lt found
  rw [mem_filesOf proper (transitiveNodes_inside inside),mem_filesOf proper directNodes_inside]
  constructor
  · rintro ⟨i,member,here⟩
    obtain ⟨other,deeper,path⟩ := (mem_transitiveNodes inside).mp member
    refine ⟨?_,?_,(reaches_iff_links proper.paths here found).mp path⟩
    · rintro rfl
      exact other (Option.some.inj (here.symm.trans found))
    · rintro ⟨j,direct,there⟩
      obtain rfl : i = j := Option.some.inj (here.symm.trans there)
      exact deeper direct
  · rintro ⟨other,deeper,links⟩
    -- The first link from the file says that it is a node.
    obtain same | ⟨next,link,-⟩ := links.cases_head
    · exact absurd same other
    obtain ⟨i,-,here,-⟩ := link
    have path := (reaches_iff_links proper.paths here found).mpr links
    refine ⟨i,(mem_transitiveNodes inside).mpr ⟨?_,fun direct => deeper ⟨i,direct,here⟩,path⟩,here⟩
    rintro rfl
    exact other (path_eq_of_find? here found)

theorem impact_eq {path : String} (found : g.find? path = some target) :
    g.impact path = .ok ⟨path,g.filesOf (g.directNodes target),g.filesOf (g.transitiveNodes target)⟩ := by
  simp only [impact,found]
  rfl

/-- The dependents of a node of a grown graph. The direct ones are the other files with a link to it, and the transitive
ones the remaining files from which links lead to it. No file is among both, each list is in strictly ascending order,
and the file itself is in neither. -/
theorem impact_dependents (additions : List Addition) (path : String)
    (node : path ∈ (grown additions).nodes.map (·.path)) :
    let g := grown additions
    ∃ report, g.impact path = .ok report ∧ report.target = path ∧
      (∀ file, file ∈ report.direct ↔ file ≠ path ∧ g.Linked file path) ∧
      (∀ file, file ∈ report.transitive ↔
        file ≠ path ∧ file ∉ report.direct ∧ Relation.ReflTransGen g.Linked file path) ∧
      report.direct.Disjoint report.transitive ∧
      report.direct.Pairwise (· < ·) ∧ report.transitive.Pairwise (· < ·) ∧
      path ∉ report.direct ∧ path ∉ report.transitive := by
  intro g
  have proper : g.Proper := grown_proper additions
  obtain ⟨target,found⟩ := Option.isSome_iff_exists.mp (find?_isSome_iff.mpr node)
  have inside := find?_lt found
  have direct := mem_directFiles proper found
  have transitive := mem_transitiveFiles proper found
  refine ⟨_,impact_eq found,rfl,direct,transitive,?_,?_,?_,?_,?_⟩
  · exact fun file near far => ((transitive file).mp far).2.1 near
  · exact filesOf_pairwise proper directNodes_inside (nodup_directNodes g target)
  · exact filesOf_pairwise proper (transitiveNodes_inside inside) (nodup_transitiveNodes inside)
  · exact fun own => ((direct path).mp own).1 rfl
  · exact fun own => ((transitive path).mp own).1 rfl

/-- A file that depends on itself and stands in a ring with a second one; a third leads to both of them, and a fourth to
the second only. -/
def leaning : List Addition :=
  [.node "a",.node "b",.node "c",.node "d",.edge 0 0 "a",.edge 0 1 "b",.edge 1 0 "a",.edge 2 0 "a",.edge 2 1 "b",
    .edge 3 1 "b"]

theorem leaning_dependents : "a" ∈ (grown leaning).nodes.map (·.path) ∧
    (grown leaning).impact "a" = .ok ⟨"a",["b","c"],["d"]⟩ ∧
      (∀ file, file ∈ ["b","c"] ↔ file ≠ "a" ∧ (grown leaning).Linked file "a") ∧
      ∀ file, file ∈ ["d"] ↔
        file ≠ "a" ∧ file ∉ ["b","c"] ∧ Relation.ReflTransGen (grown leaning).Linked file "a" := by
  have known : "a" ∈ (grown leaning).nodes.map (·.path) := by decide
  have found : (grown leaning).find? "a" = some 0 := by decide
  have near : ((grown leaning).directNodes 0).map (grown leaning).pathOf = ["b","c"] := by decide
  have far : ((grown leaning).transitiveNodes 0).map (grown leaning).pathOf = ["d"] := by decide
  have ascending : Text.sorted ["b","c"] = ["b","c"] := List.mergeSort_of_pairwise (by decide)
  have single : Text.sorted ["d"] = ["d"] := List.mergeSort_singleton "d"
  have made : (grown leaning).impact "a" = .ok ⟨"a",["b","c"],["d"]⟩ := by
    rw [impact_eq found,filesOf,filesOf,near,far,ascending,single]
  obtain ⟨report,same,-,direct,transitive,-⟩ := impact_dependents leaning "a" known
  obtain rfl := Except.ok.inj (same.symm.trans made)
  exact ⟨known,made,direct,transitive⟩

end Depends.Graph
