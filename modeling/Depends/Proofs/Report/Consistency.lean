import Depends.Proofs.Analysis.Coherence
import Depends.Proofs.Analysis.Declaring
import Depends.Proofs.Graph.Condensation
import Depends.Report.Document

/-!
The numbers of a document against its lists. The summary reads counters and tables, the lists walk over nodes, edges,
names and components; the two agree because the graph and the type table of a run are such as additions make
(`summary_counts`).
-/
namespace Depends

namespace Graph

variable {g : Graph}

/-- The names of nodes are listed one by one. -/
theorem names_eq {members : List Nat} (inside : ∀ v ∈ members, v < g.size) :
    g.names (members.map Int.ofNat) = members.map fun v => Path.base (g.pathOf v) := by
  unfold names
  rw [List.filterMap_map,← List.filterMap_eq_map]
  refine List.filterMap_congr fun v member => ?_
  have bound := inside v member
  have node : g.nodes[v]? = some g.nodes[v] := List.getElem?_eq_getElem bound
  simp [node?,bound,node,pathOf,GraphNode.name]

/-- The components name every file. -/
theorem names_components_perm (closed : g.Closed) :
    (g.components.map fun members => g.names (members.map Int.ofNat)).flatten.Perm (g.nodes.map (·.name)) := by
  have names : (g.components.map fun members => g.names (members.map Int.ofNat)).flatten =
      g.components.flatten.map fun v => Path.base (g.pathOf v) := by
    rw [List.map_flatten]
    refine congrArg List.flatten (List.map_congr_left fun members listed => ?_)
    exact names_eq fun v member => lt_size_of_mem_component closed listed member
  have nodes : (List.range g.size).map (fun v => Path.base (g.pathOf v)) = g.nodes.map (·.name) := by
    have bases := congrArg (List.map Path.base) g.map_range_pathOf
    rwa [List.map_map,List.map_map] at bases
  rw [names,← nodes]
  exact (components_perm closed).map _

theorem length_names (closed : g.Closed) {members : List Nat} (listed : members ∈ g.components) :
    (g.names (members.map Int.ofNat)).length = members.length := by
  rw [names_eq fun v member => lt_size_of_mem_component closed listed member,List.length_map]

end Graph

namespace Report

/-- Every number in the summary of a run counts what the document of the run lists: the files, which are also the names
in the components, the edges of all files, the declarations of all names of the type table, the components, those with
at least two names, and the skipped files. -/
theorem summary_counts {σ : Type} {r : Repository} (started : r.Started) {source : SemiSource σ} {options : RuleOptions}
    {paths : List String} {state after : σ} {a : Analysis}
    (run : r.analyze source options paths state = (.ok a,after)) (generated : Stamp) :
    let d := Document.ofAnalysis generated a
    d.summary.files = d.files.length ∧ d.summary.files = (d.components.map (·.length)).sum ∧
      d.summary.edges = (d.files.map (·.dependsOn.length)).sum ∧
      d.summary.types = d.types.length ∧
      d.types.length = (a.repository.types.names.map fun name => (a.repository.types.lookup name).length).sum ∧
      d.summary.components = d.components.length ∧
      d.summary.cyclic = d.components.countP (2 ≤ ·.length) ∧ d.summary.failures = d.failures.length := by
  intro d
  obtain ⟨coherent,components⟩ := started.coherent.analyze run
  have proper : a.graph.Proper := Graph.Grown.proper coherent
  have lengths : ∀ members ∈ a.components, (a.graph.names (members.map Int.ofNat)).length = members.length :=
    fun members listed => Graph.length_names proper.closed (components ▸ listed)
  refine ⟨?_,?_,?_,?_,?_,?_,?_,?_⟩
  · exact (List.length_map _).symm
  · have names := (Graph.names_components_perm proper.closed).length_eq
    rw [List.length_flatten,List.length_map,← components] at names
    exact names.symm
  · exact proper.counted.trans (congrArg List.sum (by simp [d,Document.ofAnalysis]))
  · exact (TypeTable.length_all _).symm.trans (List.length_map _).symm
  · have listed := congrArg List.length a.repository.types.all_eq
    simp only [List.length_flatMap,List.length_map] at listed
    exact (List.length_map _).trans listed
  · exact (List.length_map _).symm
  · have cyclic : d.summary.cyclic = a.components.countP (1 < ·.length) := List.countP_eq_length_filter.symm
    have named : d.components = a.components.map fun members => a.graph.names (members.map Int.ofNat) := rfl
    rw [cyclic,named,List.countP_map]
    refine List.countP_congr fun members listed => ?_
    simp only [Function.comp_apply,decide_eq_true_eq,lengths members listed]
    exact Nat.lt_iff_add_one_le
  · exact (List.length_map _).symm

/-- Two files with types that extend each other, and a crash on every other file. -/
def entangled : SemiSource Unit where
  semis path _ :=
    (if path = "a.cs" then .ok [⟨["class","A",":","B","\x7b"],path,1,1⟩,⟨["\x7d"],path,2,2⟩]
      else if path = "b.cs" then .ok [⟨["class","B",":","A","\x7b"],path,1,1⟩,⟨["\x7d"],path,2,2⟩]
      else .error (.crashed "out of range"),())
  isCancelled _ := false

theorem entangled_counts : ∃ a, ({} : Repository).analyze entangled .standard ["a.cs","b.cs","c.cs"] () = (.ok a,()) ∧
    (Document.ofAnalysis .zero a).components = [["b.cs","a.cs"],["c.cs"]] ∧
      (Summary.ofAnalysis a).files = 3 ∧ (Summary.ofAnalysis a).components = 2 ∧ (Summary.ofAnalysis a).cyclic = 1 := by
  have known : (({} : Repository).analyze entangled .standard ["a.cs","b.cs","c.cs"] ()).1.toOption.map
      (fun a => (Document.ofAnalysis .zero a).components) = some [["b.cs","a.cs"],["c.cs"]] := by decide +kernel
  cases run : ({} : Repository).analyze entangled .standard ["a.cs","b.cs","c.cs"] () with
  | mk result after =>
    rw [run] at known
    cases result with
    | error failure => cases known
    | ok a =>
      have named : (Document.ofAnalysis .zero a).components = [["b.cs","a.cs"],["c.cs"]] := Option.some.inj known
      obtain ⟨-,files,-,-,-,components,cyclic,-⟩ := summary_counts .fresh run .zero
      rw [named] at files components cyclic
      exact ⟨a,rfl,named,files,components,cyclic⟩

end Report

end Depends
