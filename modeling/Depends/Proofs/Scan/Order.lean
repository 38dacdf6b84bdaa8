import Depends.Proofs.Path.Order
import Depends.Proofs.Scan.Coverage
import Depends.Proofs.Text.ByteOrder

/-!
The order in which a scan finds the files of a root. They come in ascending order of their elements. That is the order
of the bytes of their paths exactly when no two of them cross, which is always so when the scan is not recursive
(`scanRoot_order`).
-/
namespace Depends

namespace Tree

variable {path : String} {es : List String} {tree : Tree}

/-- The files directly in a folder are in ascending order of their paths and of their elements. -/
theorem ownFiles_pairwise (sound : tree.Sound) (here : ∀ name ∈ es, Path.IsName name) :
    (tree.ownFiles (Path.ofElements es)).Pairwise fun p q => p < q ∧ Path.elements p < Path.elements q := by
  cases sound with
  | file file => exact .nil
  | @folder entries ascending named inner =>
    obtain ⟨front,written⟩ := Path.exists_front es
    have kept : (entries.filter (!·.2.isFolder)).Pairwise fun a b => a.1 < b.1 :=
      (List.pairwise_map.mp ascending).sublist List.filter_sublist
    rw [ownFiles,List.pairwise_map]
    refine kept.imp_of_mem fun {a b} member member' less => ?_
    have name := named a (List.mem_filter.mp member).1
    have name' := named b (List.mem_filter.mp member').1
    rw [Path.append_ofElements here name,Path.append_ofElements here name']
    constructor
    · rw [written,written,String.lt_iff,String.toList_append,String.toList_append]
      exact List.append_left_lt (String.lt_iff.mp less)
    · rw [Path.elements_ofElements (List.forall_mem_append.mpr ⟨here,List.forall_mem_singleton.mpr name⟩),
        Path.elements_ofElements (List.forall_mem_append.mpr ⟨here,List.forall_mem_singleton.mpr name'⟩)]
      exact List.append_left_lt (List.cons_lt_cons_iff.mpr (.inl less))

/-- They are sorted already. -/
theorem sorted_ownFiles (sound : tree.Sound) (here : ∀ name ∈ es, Path.IsName name) :
    Text.sorted (tree.ownFiles (Path.ofElements es)) = tree.ownFiles (Path.ofElements es) := by
  refine List.mergeSort_of_pairwise ((ownFiles_pairwise sound here).imp fun both => ?_)
  exact decide_eq_true (le_of_lt both.1)

end Tree

namespace Files

variable {matcher : Type} [Matcher matcher] {files : Files} {filter : FileFilter matcher} {recursive : Bool}
  {root path : String} {es found : List String} {tree : Tree}

theorem looked_pairwise (whole : tree.Sound) (here : ∀ name ∈ es, Path.IsName name) :
    (looked filter recursive (Path.ofElements es) tree).Pairwise fun v w =>
      Path.elements v.path < Path.elements w.path := by
  unfold looked
  split
  · exact Tree.walkFrom_pairwise whole here
  · rw [Tree.sorted_ownFiles whole here,List.pairwise_map]
    exact (Tree.ownFiles_pairwise whole here).imp And.right

theorem looked_flat (whole : tree.Sound) (here : ∀ name ∈ es, Path.IsName name) :
    (looked filter false (Path.ofElements es) tree).Pairwise fun v w => v.path < w.path := by
  unfold looked
  split
  · rename_i single
    cases tree with
    | file file =>
      rw [Tree.walkFrom]
      exact List.pairwise_singleton _ _
    | folder entries => cases single
  · rw [Tree.sorted_ownFiles whole here,List.pairwise_map]
    exact (Tree.ownFiles_pairwise whole here).imp And.left

theorem pairwise_taken {visits : List Visit} {R : String → String → Prop}
    (related : visits.Pairwise fun v w => R v.path w.path) : (taken filter visits).Pairwise R :=
  (List.pairwise_map.mpr (related.sublist List.filter_sublist)).sublist List.filter_sublist

/-- What is looked at has simplified absolute paths. -/
theorem looked_named (whole : tree.Sound) (here : ∀ name ∈ es, Path.IsName name) {visit : Visit}
    (visited : visit ∈ looked filter recursive (Path.ofElements es) tree) :
    ∃ names, (∀ name ∈ names, Path.IsName name) ∧ visit.path = Path.ofElements names := by
  unfold looked at visited
  split at visited
  · obtain ⟨names,named,path,-⟩ := Tree.elements_visited whole here visited
    exact ⟨_,List.forall_mem_append.mpr ⟨here,named⟩,path⟩
  · obtain ⟨path,listed,rfl⟩ := List.mem_map.mp visited
    rw [Text.mem_sorted,Tree.mem_ownFiles whole here] at listed
    obtain ⟨name,file,reached,rfl⟩ := listed
    exact ⟨_,List.forall_mem_append.mpr ⟨here,(whole.find reached).1⟩,rfl⟩

/-- The files of a root come in ascending order of their elements. They are in ascending order of the bytes of their
paths exactly when none of them lies in a folder whose path another one of them continues with a character that is
smaller than a slash; without recursion they always are. -/
theorem scanRoot_order (sound : files.Sound)
    (scanned : files.scanRoot filter recursive (Path.absolute files.workingDirectory root) = .ok found) :
    (found.Pairwise fun p q => Path.elements p < Path.elements q) ∧
      ((found.Pairwise fun p q => Text.encode p < Text.encode q) ↔
        ∀ p ∈ found, ∀ q ∈ found, ¬ Path.Crosses p q) ∧
      (recursive = false → found.Pairwise fun p q => Text.encode p < Text.encode q) := by
  obtain ⟨es,tree,here,-,-,whole,rfl⟩ := scanRoot_ok sound scanned
  have ascending : (taken filter (looked filter recursive (Path.ofElements es) tree)).Pairwise fun p q =>
      Path.elements p < Path.elements q := pairwise_taken (looked_pairwise whole here)
  simp only [Text.encode_lt_encode]
  refine ⟨ascending,Path.pairwise_lt_iff (ascending.imp_of_mem fun {p q} listed listed' less => ?_),?_⟩
  · obtain ⟨es,named,rfl⟩ := looked_named whole here (mem_taken.mp listed).2
    obtain ⟨es',named',rfl⟩ := looked_named whole here (mem_taken.mp listed').2
    rw [Path.elements_ofElements named,Path.elements_ofElements named'] at less
    exact (Path.ranks_lt_ranks named named').mpr less
  · rintro rfl
    exact pairwise_taken (looked_flat whole here)

theorem scanRoot_order_siblings :
    (["/w/a/x.cs","/w/a.cs"].Pairwise fun p q => Path.elements p < Path.elements q) ∧
      ((["/w/a/x.cs","/w/a.cs"].Pairwise fun p q => Text.encode p < Text.encode q) ↔
        ∀ p ∈ ["/w/a/x.cs","/w/a.cs"], ∀ q ∈ ["/w/a/x.cs","/w/a.cs"], ¬ Path.Crosses p q) ∧
      ["/w/a.cs"].Pairwise fun p q => Text.encode p < Text.encode q := by
  have deep : siblings.scanRoot sources true (Path.absolute siblings.workingDirectory ".") =
      .ok ["/w/a/x.cs","/w/a.cs"] := by decide +kernel
  have flat : siblings.scanRoot sources false (Path.absolute siblings.workingDirectory ".") = .ok ["/w/a.cs"] := by
    decide +kernel
  obtain ⟨ascending,bytes,-⟩ := scanRoot_order siblings_sound deep
  exact ⟨ascending,bytes,(scanRoot_order siblings_sound flat).2.2 rfl⟩

/-- What lies in a folder comes before a file beside it whose name continues that of the folder with a dot. -/
theorem scanRoot_unsorted :
    siblings.scanRoot sources true (Path.absolute siblings.workingDirectory ".") = .ok ["/w/a/x.cs","/w/a.cs"] ∧
      ¬ ["/w/a/x.cs","/w/a.cs"].Pairwise fun p q => Text.encode p < Text.encode q :=
  ⟨by decide +kernel,by decide +kernel⟩

end Files

end Depends
