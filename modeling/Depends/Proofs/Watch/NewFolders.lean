import Depends.Proofs.Scan.Coverage
import Depends.Proofs.Watch.Delivery

/-!
New folders. A recursive watcher that is told of a new folder listens to it and keeps the files that are already below
it. When it listens it passes over the same folders as a scan, but not when it looks for files. So it keeps what a scan
of the folder finds and besides what lies in folders passed over, and the two agree exactly when nothing that takes
part lies there (`new_folder_scheduled`). When the system refuses to let it listen, it keeps nothing.
-/
namespace Depends

variable {files : Files} {d p : String} {tree : Tree}

/-! ### What lies below the folder -/

/-- A walk from a folder gets to the files that it gets to from the simplified path. -/
theorem Tree.mem_walkFrom_simplified {skips : String → Bool} (sound : tree.Sound) (folder : tree.isFolder = true)
    (absolute : Path.isAbsolute d = true) :
    ⟨p,false⟩ ∈ tree.walkFrom skips d ↔ ⟨p,false⟩ ∈ tree.walkFrom skips (Path.ofElements (Path.elements d)) := by
  cases sound with
  | file file => cases folder
  | @folder entries ascending named inner =>
    have same : walkEntries skips d entries = walkEntries skips (Path.ofElements (Path.elements d)) entries := by
      rw [walkEntries_eq,walkEntries_eq]
      refine List.flatMap_congr fun entry member => ?_
      rw [Path.append_of_isAbsolute absolute (named entry member),
        Path.append_ofElements (Path.isName_of_mem_elements absolute) (named entry member)]
    rw [walkFrom,walkFrom,same]
    simp

theorem Files.stat_of_isFolder (folder : files.isFolder d = true) :
    ∃ tree, files.stat d = .ok tree ∧ tree.isFolder = true := by
  rw [isFolder] at folder
  cases standing : files.stat d with
  | ok tree => exact ⟨tree,rfl,by simpa [standing] using folder⟩
  | error refusal => simp [standing] at folder

/-- A walk from a folder gets to the files below it with no skipped folder strictly between. -/
theorem Files.mem_walk_below {skips : String → Bool} (sound : files.Sound) (absolute : Path.isAbsolute d = true)
    (standing : files.stat d = .ok tree) (folder : tree.isFolder = true) :
    ⟨p,false⟩ ∈ tree.walkFrom skips d ↔
      files.IsFile p ∧ Path.Below d p ∧ ∀ folder, Path.Below d folder → Path.Below folder p → skips folder = false := by
  have here := Path.isName_of_mem_elements absolute
  have there := stat_simplified sound absolute standing
  have whole : tree.Sound := (sound.root.find ((stat_ofElements sound here).symm.trans there)).2
  rw [Tree.mem_walkFrom_simplified whole folder absolute,mem_walk_file sound here there whole]
  simp only [Path.below_simplified absolute]
  refine and_congr_right fun ⟨file,present⟩ => or_iff_right ?_
  rintro rfl
  rw [Except.ok.inj (there.symm.trans present)] at folder
  cases folder

/-! ### What the watcher keeps -/

namespace Watcher

variable {matcher : Type} {w : Watcher matcher} {changes : List Change}

theorem mem_pending_scheduleAll (paths : List String) (w : Watcher matcher) :
    p ∈ (paths.foldl schedule w).pending ↔ p ∈ w.pending ∨ p ∈ paths := by
  induction paths generalizing w with
  | nil => simp
  | cons path paths ih => rw [List.foldl_cons,ih,mem_pending_schedule,List.mem_cons,or_assoc]

variable [Matcher matcher]

theorem mem_pending_react : p ∈ (w.react files d changes).pending ↔
    p ∈ w.pending ∨ p ∈ w.scheduledBy files d changes := by
  rw [react_eq,mem_pending_scheduleAll,(samePending_heard w files d changes).pending]

theorem mem_filesBelow (sound : files.Sound) (absolute : Path.isAbsolute d = true)
    (standing : files.stat d = .ok tree) (folder : tree.isFolder = true) :
    p ∈ w.filesBelow files d ↔ files.IsFile p ∧ w.filter.takesFile p = true ∧ Path.Below d p := by
  have walked : p ∈ w.filesBelow files d ↔
      w.filter.takesFile p = true ∧ ⟨p,false⟩ ∈ tree.walkFrom (fun _ => false) d := by
    rw [filesBelow,Files.visits,standing]
    simp only [List.mem_map,List.mem_filter,Bool.and_eq_true,Bool.not_eq_true']
    constructor
    · rintro ⟨⟨path,isFolder⟩,⟨visited,rfl,taken⟩,rfl⟩
      exact ⟨taken,visited⟩
    · rintro ⟨taken,visited⟩
      exact ⟨_,⟨visited,rfl,taken⟩,rfl⟩
  rw [walked,Files.mem_walk_below sound absolute standing folder]
  simp only [implies_true,and_true]
  exact and_left_comm

/-- A scan of a folder overlooks a file that takes part when it lies in another folder, below, that is passed over. -/
def Overlooks (filter : FileFilter matcher) (files : Files) (d p : String) : Prop :=
  files.IsFile p ∧ filter.takesFile p = true ∧
    ∃ folder, Path.Below d folder ∧ Path.Below folder p ∧ filter.skipsFolder folder = true

/-- An event that tells a recursive watcher of a new folder, one that is not passed over, schedules nothing when the
system refuses to let the watcher listen to the folder or to one below. Otherwise it schedules the files that a
recursive scan of the folder finds, and those that the scan overlooks because they lie in folders passed over. So the
two agree exactly when there are no such files. -/
theorem new_folder_scheduled (sound : files.Sound) (w : Watcher matcher) (deep : w.recursive = true)
    (absolute : Path.isAbsolute d = true) (folder : files.isFolder d = true) (entered : w.filter.skipsFolder d = false)
    (created : .create ∈ changes) :
    (∀ p, p ∈ (w.react files d changes).pending ↔ p ∈ w.pending ∨ p ∈ w.scheduledBy files d changes) ∧
      (∀ failure, (w.add files d).1 = some failure → w.scheduledBy files d changes = []) ∧
      ∃ found, files.scanRoot w.filter true d = .ok found ∧ (∀ p ∈ found, ¬ Overlooks w.filter files d p) ∧
        ((w.add files d).1 = none →
          (∀ p, p ∈ w.scheduledBy files d changes ↔ p ∈ found ∨ Overlooks w.filter files d p) ∧
          ((∀ p, p ∈ w.scheduledBy files d changes ↔ p ∈ found) ↔ ∀ p, ¬ Overlooks w.filter files d p)) := by
  have met : w.meetsFolder files d changes = true := by simp [meetsFolder,created,deep,folder]
  obtain ⟨tree,standing,shape⟩ := Files.stat_of_isFolder folder
  have found : ∀ p, p ∈ Files.taken w.filter (Files.looked w.filter true d tree) ↔
      (files.IsFile p ∧ w.filter.takesFile p = true ∧ Path.Below d p) ∧ ¬ Overlooks w.filter files d p := by
    intro p
    rw [Files.mem_taken,show Files.looked w.filter true d tree = tree.walkFrom _ d from rfl,
      Files.mem_walk_below sound absolute standing shape]
    unfold Overlooks
    grind
  refine ⟨fun p => mem_pending_react,fun failure refused => ?_,_,Files.scanRoot_eq standing,
    fun p listed => ((found p).mp listed).2,fun listening => ?_⟩
  · rw [scheduledBy,if_pos met,refused]
    simp
  · have scheduled : ∀ p, p ∈ w.scheduledBy files d changes ↔
        files.IsFile p ∧ w.filter.takesFile p = true ∧ Path.Below d p := by
      intro p
      rw [scheduledBy,if_pos met,if_pos (by simp [entered,listening]),mem_filesBelow sound absolute standing shape]
    have covered : ∀ p, Overlooks w.filter files d p → p ∈ w.scheduledBy files d changes := by
      rintro p ⟨present,taken,folder,inside,outside,-⟩
      exact (scheduled p).mpr ⟨present,taken,inside.trans outside⟩
    constructor
    · intro p
      rw [found,← scheduled]
      grind
    · simp only [found,← scheduled]
      grind

/-- A folder with a file of its own, one in a folder below, and a folder of built files with none that takes part. -/
def tidy : Files :=
  let blank : File := { content := .bytes [], modified := 0 }
  (((Files.empty "/").place "/d/a.cs" blank).place "/d/bin/a.txt" blank).place "/d/src/b.cs" blank

theorem new_folder_scheduled_tidy :
    tidy.scanRoot Watching.sourceFilter true "/d" = .ok ["/d/a.cs","/d/src/b.cs"] ∧
      (∀ p, p ∈ Watching.listener.scheduledBy tidy "/d" [.create] ↔ p ∈ ["/d/a.cs","/d/src/b.cs"]) ∧
      ∀ p, ¬ Overlooks Watching.sourceFilter tidy "/d" p := by
  have sound : tidy.Sound := (((Files.Sound.empty (by decide)).place _ (by decide +kernel)).place _
    (by decide +kernel)).place _ (by decide +kernel)
  have scan : tidy.scanRoot Watching.sourceFilter true "/d" = .ok ["/d/a.cs","/d/src/b.cs"] := by decide +kernel
  have same : Watching.listener.scheduledBy tidy "/d" [.create] = ["/d/a.cs","/d/src/b.cs"] := by decide +kernel
  have listening : (Watching.listener.add tidy "/d").1 = none := by decide +kernel
  have folder : tidy.isFolder "/d" = true := by decide +kernel
  have entered : Watching.listener.filter.skipsFolder "/d" = false := by decide +kernel
  have created : Change.create ∈ [Change.create] := List.mem_singleton.mpr rfl
  obtain ⟨-,-,found,scanned,-,agree⟩ :=
    new_folder_scheduled sound Watching.listener rfl (by decide) folder entered created
  cases scan.symm.trans scanned
  have listed : ∀ p, p ∈ Watching.listener.scheduledBy tidy "/d" [.create] ↔ p ∈ ["/d/a.cs","/d/src/b.cs"] := by
    rw [same]
    exact fun p => Iff.rfl
  exact ⟨scan,listed,(agree listening).2.mp listed⟩

/-- A folder of built files with one that takes part. -/
def untidy : Files :=
  let blank : File := { content := .bytes [], modified := 0 }
  ((Files.empty "/").place "/d/a.cs" blank).place "/d/bin/b.cs" blank

/-- The file in the folder that is passed over is scheduled, though a scan does not find it and the watcher does not
listen to its folder. -/
theorem new_folder_overlooked :
    (Watching.listener.recursive = true ∧ untidy.isFolder "/d" = true ∧
      Watching.listener.filter.skipsFolder "/d" = false) ∧
      untidy.scanRoot Watching.sourceFilter true "/d" = .ok ["/d/a.cs"] ∧
      (Watching.listener.react untidy "/d" [.create]).watched = ["/d"] ∧
      ¬ ∀ p, p ∈ Watching.listener.scheduledBy untidy "/d" [.create] ↔ p ∈ ["/d/a.cs"] := by
  have both : Watching.listener.scheduledBy untidy "/d" [.create] = ["/d/a.cs","/d/bin/b.cs"] := by decide +kernel
  refine ⟨⟨rfl,by decide +kernel,by decide +kernel⟩,by decide +kernel,by decide +kernel,fun same => ?_⟩
  rw [both] at same
  exact absurd ((same "/d/bin/b.cs").mp (by decide)) (by decide)

end Watcher

end Depends
