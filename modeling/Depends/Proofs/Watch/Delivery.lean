import Depends.Proofs.Text.Distinct
import Depends.Watch

/-!
What a watcher delivers. Events are handled one after the other, each by scheduling paths one by one; flushes come from
elsewhere and at any time, also between two paths of one event. A flush delivers what was scheduled since the flush
before it, each path once and in order, and nothing when nothing was scheduled (`flushes_deliver`).
-/
namespace Depends

namespace Watcher

variable {matcher : Type} {w v : Watcher matcher} {files : Files} {path p : String} {changes : List Change}

/-! ### Listening and waiting -/

/-- The second watcher is the first one up to the paths it listens to. -/
structure SamePending (w v : Watcher matcher) : Prop where
  filter : v.filter = w.filter
  recursive : v.recursive = w.recursive
  pending : v.pending = w.pending

theorem SamePending.refl (w : Watcher matcher) : w.SamePending w := ⟨rfl,rfl,rfl⟩

theorem samePending_listen (listening : w.listen files path = .ok v) : w.SamePending v := by
  unfold listen at listening
  split at listening
  · cases listening
  · cases listening
    split <;> exact ⟨rfl,rfl,rfl⟩

theorem samePending_listenAll (files : Files) (paths : List String) (w : Watcher matcher) :
    w.SamePending (listenAll files paths w).2 := by
  induction paths generalizing w with
  | nil => exact .refl w
  | cons path paths ih =>
    rw [listenAll]
    cases listening : w.listen files path with
    | error failure => exact .refl w
    | ok v =>
      have first := samePending_listen listening
      have rest := ih v
      exact ⟨rest.filter.trans first.filter,rest.recursive.trans first.recursive,rest.pending.trans first.pending⟩

/-- Whether the system refuses one of the paths does not depend on the watcher. -/
theorem listenAll_congr (files : Files) (paths : List String) (v w : Watcher matcher) :
    (listenAll files paths v).1 = (listenAll files paths w).1 := by
  induction paths generalizing v w with
  | nil => rfl
  | cons path paths ih =>
    simp only [listenAll,listen]
    cases files.watchRefusal path with
    | some failure => rfl
    | none => exact ih _ _

theorem mem_pending_schedule : p ∈ (w.schedule path).pending ↔ p ∈ w.pending ∨ p = path := by
  unfold schedule
  split
  · rename_i known
    refine ⟨.inl,fun found => found.elim id ?_⟩
    rintro rfl
    exact List.contains_iff_mem.mp known
  · simp

theorem nodup_pending_schedule (distinct : w.pending.Nodup) (path : String) : (w.schedule path).pending.Nodup := by
  unfold schedule
  split
  · exact distinct
  · rename_i new
    rw [List.contains_iff_mem] at new
    refine List.nodup_append.mpr ⟨distinct,List.nodup_singleton path,?_⟩
    intro old member last only
    rw [List.mem_singleton.mp only]
    exact fun same => new (same ▸ member)

theorem schedule_kept (w : Watcher matcher) (path : String) :
    (w.schedule path).filter = w.filter ∧ (w.schedule path).recursive = w.recursive := by
  unfold schedule
  split <;> exact ⟨rfl,rfl⟩

theorem flush_kept (w : Watcher matcher) : ({ w with pending := [] } : Watcher matcher).SamePending w.flush.2 := by
  unfold flush
  split
  · rename_i empty
    exact ⟨rfl,rfl,List.isEmpty_iff.mp empty⟩
  · exact ⟨rfl,rfl,rfl⟩

theorem flush_batch (w : Watcher matcher) :
    w.flush.1 = if Text.sorted w.pending = [] then none else some (Text.sorted w.pending) := by
  have empty : Text.sorted w.pending = [] ↔ w.pending = [] := by
    rw [Text.sorted,← List.length_eq_zero_iff,List.length_mergeSort,List.length_eq_zero_iff]
  unfold flush
  simp only [List.isEmpty_iff,empty]
  split <;> rfl

/-! ### One event -/

variable [Matcher matcher]

/-- The watcher once it listens to the new folder that an event tells of, if it tells of one. -/
def heard (w : Watcher matcher) (files : Files) (path : String) (changes : List Change) : Watcher matcher :=
  if w.meetsFolder files path changes && !w.filter.skipsFolder path then (w.add files path).2 else w

/-- The files at or below a path that take part. -/
def filesBelow (w : Watcher matcher) (files : Files) (root : String) : List String :=
  match files.visits (fun _ => false) root with
  | .error _ => []
  | .ok visits => (visits.filter fun v => !v.isFolder && w.filter.takesFile v.path).map (·.path)

/-- The paths that an event schedules, in order: the files below a new folder that can be listened to, or the path
itself. -/
def scheduledBy (w : Watcher matcher) (files : Files) (path : String) (changes : List Change) : List String :=
  if w.meetsFolder files path changes then
    if !w.filter.skipsFolder path && (w.add files path).1.isNone then w.filesBelow files path else []
  else if w.filter.takesFile path && changes.any Change.touches then [path] else []

theorem takesFile_of_mem_scheduledBy (member : p ∈ w.scheduledBy files path changes) :
    w.filter.takesFile p = true := by
  unfold scheduledBy at member
  split at member
  · split at member
    · unfold filesBelow at member
      split at member
      · cases member
      · obtain ⟨visit,listed,rfl⟩ := List.mem_map.mp member
        exact (Bool.and_eq_true_iff.mp (List.mem_filter.mp listed).2).2
    · cases member
  · split at member
    · rename_i taken
      rw [List.mem_singleton.mp member]
      exact (Bool.and_eq_true_iff.mp taken).1
    · cases member

theorem samePending_add (w : Watcher matcher) (files : Files) (path : String) : w.SamePending (w.add files path).2 := by
  unfold add
  split
  · cases files.visits w.filter.skipsFolder path with
    | error failure => exact .refl w
    | ok visits => exact samePending_listenAll files _ w
  · cases files.stat path with
    | error refusal => exact .refl w
    | ok tree => exact samePending_listenAll files _ w

theorem samePending_heard (w : Watcher matcher) (files : Files) (path : String) (changes : List Change) :
    w.SamePending (w.heard files path changes) := by
  unfold heard
  split
  · exact w.samePending_add files path
  · exact .refl w

theorem scheduleBelow_eq (w : Watcher matcher) (files : Files) (root : String) :
    w.scheduleBelow files root = (w.filesBelow files root).foldl schedule w := by
  unfold scheduleBelow filesBelow
  cases files.visits (fun _ => false) root <;> rfl

/-- A watcher reacts to an event by listening and then scheduling one path after the other. -/
theorem react_eq (w : Watcher matcher) (files : Files) (path : String) (changes : List Change) :
    w.react files path changes = (w.scheduledBy files path changes).foldl schedule (w.heard files path changes) := by
  unfold react scheduledBy heard
  by_cases folder : w.meetsFolder files path changes = true
  · by_cases skipped : w.filter.skipsFolder path = true
    · simp [folder,skipped]
    · have same := w.samePending_add files path
      rcases listening : w.add files path with ⟨_ | failure,v⟩
      · rw [listening] at same
        have below : v.filesBelow files path = w.filesBelow files path := by
          rw [filesBelow,filesBelow,same.filter]
        simp [folder,skipped,scheduleBelow_eq,below]
      · simp [folder,skipped]
  · by_cases taken : (w.filter.takesFile path && changes.any Change.touches) = true
    · simp [folder,taken]
    · simp [folder,taken]

/-- What an event schedules depends on the filter and on whether folders are followed. -/
theorem scheduledBy_congr (filter : v.filter = w.filter) (recursive : v.recursive = w.recursive) :
    v.scheduledBy files path changes = w.scheduledBy files path changes := by
  have listening : (v.add files path).1 = (w.add files path).1 := by
    unfold add
    rw [filter,recursive]
    split
    · cases files.visits w.filter.skipsFolder path with
      | error failure => rfl
      | ok visits => exact listenAll_congr ..
    · cases files.stat path with
      | error refusal => rfl
      | ok tree => exact listenAll_congr ..
  have below : v.filesBelow files path = w.filesBelow files path := by rw [filesBelow,filesBelow,filter]
  rw [scheduledBy,scheduledBy,meetsFolder,meetsFolder,filter,recursive,listening,below]

end Watcher

/-! ### Runs -/

/-- A watcher at work, with the paths that the event in hand has still to schedule. -/
structure Watching (matcher : Type := Glob) where
  watcher : Watcher matcher
  due : List String := []

/-- What can be seen of a step: an event was taken in hand while the files were as given, a path was scheduled, or a
flush called back with a batch or did not call back. -/
inductive Mark where
  | handled (files : Files) (path : String) (changes : List Change)
  | scheduled (path : String)
  | flushed (batch : Option (List String))

namespace Watching

variable {matcher : Type} [Matcher matcher]

/-- The steps of a watcher at work. The next event waits until the one in hand has scheduled all its paths; a flush
waits for nothing. -/
inductive Step : Watching matcher → Mark → Watching matcher → Prop
  | handle {s : Watching matcher} (idle : s.due = []) (files : Files) (path : String) (changes : List Change) :
      Step s (.handled files path changes)
        ⟨s.watcher.heard files path changes,s.watcher.scheduledBy files path changes⟩
  | schedule {s : Watching matcher} {path : String} {due : List String} (next : s.due = path :: due) :
      Step s (.scheduled path) ⟨s.watcher.schedule path,due⟩
  | flush {s : Watching matcher} {batch : Option (List String)} (called : s.watcher.flush.1 = batch) :
      Step s (.flushed batch) ⟨s.watcher.flush.2,s.due⟩

/-- What was seen of some steps from a start on. -/
inductive Run (start : Watching matcher) : List Mark → Watching matcher → Prop
  | nil : Run start [] start
  | snoc {marks : List Mark} {mark : Mark} {s t : Watching matcher} (run : Run start marks s) (step : Step s mark t) :
      Run start (marks ++ [mark]) t

variable {start s : Watching matcher} {marks : List Mark}

theorem Run.scheduleAll {paths : List String} : ∀ {marks : List Mark} {w : Watcher matcher}, Run start marks ⟨w,paths⟩ →
    Run start (marks ++ paths.map .scheduled) ⟨paths.foldl Watcher.schedule w,[]⟩ := by
  induction paths with
  | nil => exact fun run => by simpa using run
  | cons path paths ih =>
    intro marks w run
    have next := ih (run.snoc (.schedule rfl))
    rwa [List.append_assoc] at next

/-- An event without a flush in between is handled as the watcher reacts to it. -/
theorem run_react (w : Watcher matcher) (files : Files) (path : String) (changes : List Change) :
    Run ⟨w,[]⟩ (.handled files path changes :: (w.scheduledBy files path changes).map .scheduled)
      ⟨w.react files path changes,[]⟩ := by
  have taken : Run ⟨w,[]⟩ ([] ++ [.handled files path changes]) _ := Run.nil.snoc (.handle rfl files path changes)
  rw [w.react_eq]
  exact taken.scheduleAll

/-- A path was scheduled, and no flush has come since. -/
def Waits (marks : List Mark) (p : String) : Prop :=
  ∃ earlier later, marks = earlier ++ .scheduled p :: later ∧ ∀ batch, .flushed batch ∉ later

theorem waits_nil (p : String) : ¬ Waits [] p := by
  rintro ⟨earlier,later,none,-⟩
  simp at none

theorem waits_snoc (marks : List Mark) (mark : Mark) (p : String) :
    Waits (marks ++ [mark]) p ↔ mark = .scheduled p ∨ Waits marks p ∧ ∀ batch, mark ≠ .flushed batch := by
  constructor
  · rintro ⟨earlier,later,split,quiet⟩
    rcases List.eq_nil_or_concat' later with rfl | ⟨later,last,rfl⟩
    · exact .inl (by simpa using (List.append_inj' split rfl).2)
    · rw [← List.cons_append,← List.append_assoc] at split
      obtain ⟨rfl,same⟩ := List.append_inj' split rfl
      obtain rfl : mark = last := by simpa using same
      refine .inr ⟨⟨earlier,later,rfl,fun batch member => quiet batch (List.mem_append_left _ member)⟩,?_⟩
      rintro batch rfl
      exact quiet batch (by simp)
  · rintro (rfl | ⟨⟨earlier,later,rfl,quiet⟩,other⟩)
    · exact ⟨marks,[],rfl,fun batch => List.not_mem_nil⟩
    · refine ⟨earlier,later ++ [mark],by simp,fun batch member => ?_⟩
      rcases List.mem_append.mp member with old | last
      · exact quiet batch old
      · exact other batch (List.mem_singleton.mp last).symm

/-- An event that was handled schedules the path. -/
def Justified (w : Watcher matcher) (marks : List Mark) (p : String) : Prop :=
  ∃ files path changes, .handled files path changes ∈ marks ∧ p ∈ w.scheduledBy files path changes

theorem Justified.snoc {w : Watcher matcher} {p : String} (justified : Justified w marks p) (mark : Mark) :
    Justified w (marks ++ [mark]) p := by
  obtain ⟨files,path,changes,member,listed⟩ := justified
  exact ⟨files,path,changes,List.mem_append_left _ member,listed⟩

/-- What holds of a watcher at work that started from a given one: the paths that wait for delivery are the pending
ones, and every path that was or will be scheduled goes back to an event. -/
structure Tracks (w : Watcher matcher) (marks : List Mark) (s : Watching matcher) : Prop where
  filter : s.watcher.filter = w.filter
  recursive : s.watcher.recursive = w.recursive
  distinct : s.watcher.pending.Nodup
  pending : ∀ p, p ∈ s.watcher.pending ↔ Waits marks p
  due : ∀ p ∈ s.due, Justified w marks p
  past : ∀ p, .scheduled p ∈ marks → Justified w marks p

theorem Tracks.begin {w : Watcher matcher} (fresh : w.pending = []) : Tracks w [] ⟨w,[]⟩ where
  filter := rfl
  recursive := rfl
  distinct := by rw [fresh]; exact List.nodup_nil
  pending p := by simp [fresh,waits_nil]
  due := fun p member => absurd member List.not_mem_nil
  past := fun p member => absurd member List.not_mem_nil

theorem Tracks.step {w : Watcher matcher} {mark : Mark} {t : Watching matcher} (tracks : Tracks w marks s) (step : Step s mark t) :
    Tracks w (marks ++ [mark]) t := by
  cases step with
  | handle idle files path changes =>
    have same := s.watcher.samePending_heard files path changes
    refine ⟨same.filter.trans tracks.filter,same.recursive.trans tracks.recursive,?_,fun p => ?_,fun p member => ?_,
      fun p member => ?_⟩
    · rw [same.pending]
      exact tracks.distinct
    · simp [same.pending,tracks.pending,waits_snoc]
    · rw [Watcher.scheduledBy_congr tracks.filter tracks.recursive] at member
      exact ⟨files,path,changes,by simp,member⟩
    · exact (tracks.past p (by simpa using member)).snoc _
  | @schedule path due next =>
    have kept := s.watcher.schedule_kept path
    have justified : ∀ p ∈ path :: due, Justified w marks p := next ▸ tracks.due
    rw [List.forall_mem_cons] at justified
    refine ⟨kept.1.trans tracks.filter,kept.2.trans tracks.recursive,
      Watcher.nodup_pending_schedule tracks.distinct path,fun p => ?_,fun p member => (justified.2 p member).snoc _,
      fun p member => ?_⟩
    · rw [Watcher.mem_pending_schedule,tracks.pending,waits_snoc,or_comm]
      simp [eq_comm]
    · rcases List.mem_append.mp member with old | new
      · exact (tracks.past p old).snoc _
      · obtain rfl : p = path := by simpa using new
        exact justified.1.snoc _
  | flush called =>
    have kept := s.watcher.flush_kept
    refine ⟨kept.filter.trans tracks.filter,kept.recursive.trans tracks.recursive,?_,fun p => ?_,
      fun p member => (tracks.due p member).snoc _,fun p member => (tracks.past p (by simpa using member)).snoc _⟩
    · rw [kept.pending]
      exact List.nodup_nil
    · simp [kept.pending,waits_snoc]

theorem Run.tracks {w : Watcher matcher} (fresh : w.pending = []) (run : Run ⟨w,[]⟩ marks s) : Tracks w marks s := by
  induction run with
  | nil => exact .begin fresh
  | snoc _ step ih => exact ih.step step

/-- Every step of a run is a step from where the run before it led. -/
theorem Run.split {before after : List Mark} {mark : Mark} (run : Run start (before ++ mark :: after) s) :
    ∃ t u, Run start before t ∧ Step t mark u := by
  generalize whole : before ++ mark :: after = marks at run
  induction run generalizing after with
  | nil => simp at whole
  | @snoc marks last t u run step ih =>
    rcases List.eq_nil_or_concat' after with rfl | ⟨after,final,rfl⟩
    · obtain ⟨rfl,same⟩ := List.append_inj' whole rfl
      obtain rfl : mark = last := by simpa using same
      exact ⟨t,u,run,step⟩
    · rw [← List.cons_append,← List.append_assoc] at whole
      exact ih (List.append_inj' whole rfl).1

/-- Over every interleaving of events and flushes, from a watcher with nothing pending: an event that is handled
without a flush in between leaves the watcher as it reacts; and every flush, wherever it comes, calls back with the
paths in ascending order that were scheduled since the flush before it, or does not call back when there are none. Each
of these paths is in the batch exactly once, takes part, and goes back to an event that was handled before. -/
theorem flushes_deliver (w : Watcher matcher) (fresh : w.pending = []) :
    (∀ files path changes,
      Run ⟨w,[]⟩ (.handled files path changes :: (w.scheduledBy files path changes).map .scheduled)
        ⟨w.react files path changes,[]⟩) ∧
    ∀ {marks : List Mark} {s : Watching matcher}, Run ⟨w,[]⟩ marks s → ∀ before batch after,
      marks = before ++ .flushed batch :: after → ∃ paths : List String,
        batch = (if paths = [] then none else some paths) ∧ paths.Pairwise (· < ·) ∧ (∀ p, p ∈ paths ↔ Waits before p) ∧
          ∀ p, Waits before p → paths.count p = 1 ∧ w.filter.takesFile p = true ∧ Justified w before p := by
  refine ⟨run_react w,?_⟩
  rintro marks s run before batch after rfl
  obtain ⟨t,u,earlier,step⟩ := run.split
  have tracks := earlier.tracks fresh
  cases step with
  | flush called =>
    have members : ∀ p, p ∈ Text.sorted t.watcher.pending ↔ Waits before p := by
      intro p
      rw [Text.sorted,List.mem_mergeSort,tracks.pending]
    have ascending := Text.sorted_pairwise tracks.distinct
    refine ⟨Text.sorted t.watcher.pending,called ▸ t.watcher.flush_batch,ascending,members,fun p waits => ?_⟩
    have seen : Mark.scheduled p ∈ before := by
      obtain ⟨first,later,rfl,-⟩ := waits
      simp
    obtain ⟨files,path,changes,handled,listed⟩ := tracks.past p seen
    refine ⟨?_,Watcher.takesFile_of_mem_scheduledBy listed,files,path,changes,handled,listed⟩
    exact List.count_eq_one_of_mem (ascending.imp fun less => String.ne_of_lt less) ((members p).mpr waits)

/-- Takes the files with one extension and passes over one folder. -/
def sourceFilter : FileFilter := { pattern := .ends ".cs", excludedFolders := [.text "bin"] }

def listener : Watcher := { filter := sourceFilter, recursive := true }

/-- A folder with two files that take part and one that does not. -/
def newFolder : Files :=
  let entry (name : String) : String × Tree := (name,.file { content := .bytes [], modified := 0 })
  { root := .folder [("d",.folder [entry "a.cs",entry "b.cs",entry "c.txt"])], directory := [] }

/-- A flush between the two paths of one event, then a write to the first of them. -/
def interrupted : List Mark :=
  [.handled newFolder "d" [.create],.scheduled "d/a.cs",.flushed (some ["d/a.cs"]),.scheduled "d/b.cs",
    .handled newFolder "d/a.cs" [.write],.scheduled "d/a.cs"]

set_option maxRecDepth 100000 in
theorem interrupted_delivered : listener.pending = [] ∧
    (∃ s, Run ⟨listener,[]⟩ (interrupted ++ [.flushed (some ["d/a.cs","d/b.cs"])]) s) ∧
      ∀ p ∈ ["d/a.cs","d/b.cs"], Waits interrupted p ∧ Justified listener interrupted p := by
  obtain ⟨-,delivers⟩ := flushes_deliver listener rfl
  have folder : listener.scheduledBy newFolder "d" [.create] = ["d/a.cs","d/b.cs"] := by decide +kernel
  have begun : Run ⟨listener,[]⟩ [.handled newFolder "d" [.create]] _ := Run.nil.snoc (.handle rfl _ _ _)
  have one : Run ⟨listener,[]⟩ [.handled newFolder "d" [.create],.scheduled "d/a.cs",.flushed (some ["d/a.cs"])] _ :=
    (begun.snoc (.schedule folder)).snoc (.flush (by decide +kernel))
  obtain ⟨s,run,pending⟩ : ∃ s, Run ⟨listener,[]⟩ interrupted s ∧ s.watcher.pending = ["d/b.cs","d/a.cs"] :=
    ⟨_,((one.snoc (.schedule rfl)).snoc (.handle rfl newFolder "d/a.cs" [.write])).snoc
      (.schedule (show _ = "d/a.cs" :: [] by decide +kernel)),by decide +kernel⟩
  have called : s.watcher.flush.1 = some ["d/a.cs","d/b.cs"] := by
    have ordered : Text.sorted ["d/b.cs","d/a.cs"] = ["d/a.cs","d/b.cs"] := by
      simp [Text.sorted,List.mergeSort,List.MergeSort.Internal.splitInTwo]
    simp [Watcher.flush_batch,pending,ordered]
  obtain ⟨paths,batch,-,members,each⟩ := delivers (run.snoc (.flush called)) _ _ [] rfl
  obtain rfl : paths = ["d/a.cs","d/b.cs"] := by grind
  exact ⟨rfl,⟨_,run.snoc (.flush called)⟩,fun p member =>
    ⟨(members p).mp member,(each p ((members p).mp member)).2.2⟩⟩

end Watching
end Depends
