import Mathlib.Data.Int.Order.Basic
import Mathlib.Data.List.MinMax
import Mathlib.Data.List.Pairwise
import Depends.Proofs.History.Saving

/-!
The order in which snapshots come back. Rows are chosen and sorted by the text of their time, which is the
order of time except for stamps that clash. So a load gives the snapshots from a time on, oldest first, exactly
when the bound is not misread for any of them and no two of them clash, and the latest snapshot is a newest one
exactly when no other clashes with a newest one (`history_order_iff`).
-/
namespace Depends

open Stamp

namespace HistoryRow

theorem stamp_le_of_before {a b : HistoryRow} (sorted : a.before b = true) : a.stamp ≤ b.stamp := by
  simp only [before,Bool.or_eq_true,decide_eq_true_eq,Bool.and_eq_true,beq_iff_eq] at sorted
  rcases sorted with earlier | ⟨same,_⟩
  · exact String.lt_asymm earlier
  · exact same ▸ String.le_refl _

theorem before_trans (a b c : HistoryRow) (first : a.before b = true) (second : b.before c = true) :
    a.before c = true := by
  simp only [before,Bool.or_eq_true,decide_eq_true_eq,Bool.and_eq_true,beq_iff_eq] at first second ⊢
  rcases first with earlier | ⟨same,runs⟩
  · rcases second with later | ⟨same,_⟩
    · exact .inl (String.lt_trans earlier later)
    · exact .inl (same ▸ earlier)
  · rcases second with later | ⟨same',runs'⟩
    · exact .inl (same ▸ later)
    · exact .inr ⟨same.trans same',String.le_trans runs runs'⟩

theorem before_total (a b : HistoryRow) : (a.before b || b.before a) = true := by
  simp only [before,Bool.or_eq_true,decide_eq_true_eq,Bool.and_eq_true,beq_iff_eq]
  by_cases earlier : a.stamp < b.stamp
  · exact .inl (.inl earlier)
  · by_cases later : b.stamp < a.stamp
    · exact .inr (.inl later)
    · have same : a.stamp = b.stamp := String.le_antisymm later earlier
      rcases String.le_total a.runId b.runId with runs | runs
      · exact .inl (.inr ⟨same,runs⟩)
      · exact .inr (.inr ⟨same.symm,runs⟩)

theorem runId_eq_of_before {a b : HistoryRow} (first : a.before b = true) (second : b.before a = true) :
    a.runId = b.runId := by
  simp only [before,Bool.or_eq_true,decide_eq_true_eq,Bool.and_eq_true,beq_iff_eq] at first second
  rcases first with earlier | ⟨same,runs⟩
  · rcases second with later | ⟨same,_⟩
    · exact absurd later (String.lt_asymm earlier)
    · exact absurd (same ▸ earlier) (String.lt_irrefl _)
  · rcases second with later | ⟨_,runs'⟩
    · exact absurd (same ▸ later) (String.lt_irrefl _)
    · exact String.le_antisymm runs runs'

end HistoryRow

/-! ### Sorted texts and times -/

theorem Stamp.nanoseconds_ne_of_clash {a b : Stamp} (clash : Clash a b) : a.nanoseconds ≠ b.nanoseconds := by
  rw [a.nanoseconds_eq,b.nanoseconds_eq,clash.1]
  intro same
  exact clash.2.1 (by omega)

theorem Stamp.clash_of_time {a b c : Stamp} (same : a.nanoseconds = b.nanoseconds) (clash : Clash a c) : Clash b c := by
  simpa [Clash,seconds,fractionDigits,part,same] using clash

namespace Snapshot

/-- Of two snapshots whose texts are in order, the times are in order exactly when they do not clash. -/
theorem le_iff_of_text_le {a b : Snapshot} (dated : a.Dated) (dated' : b.Dated) (sorted : a.stamp.text ≤ b.stamp.text) :
    a.stamp.nanoseconds ≤ b.stamp.nanoseconds ↔ ¬ Clash a.stamp b.stamp := by
  have order : ¬ b.stamp.text < a.stamp.text := sorted
  rw [text_lt dated'.plain dated.plain dated'.tellable dated.tellable] at order
  by_cases clash : Clash a.stamp b.stamp
  · have differ := nanoseconds_ne_of_clash clash
    rw [if_pos clash.symm] at order
    simp only [clash,not_true_eq_false,iff_false]
    omega
  · rw [if_neg fun other => clash other.symm] at order
    simp only [clash,not_false_eq_true,iff_true]
    omega

/-- Snapshots that are sorted by their texts are in order of time exactly when no two of them clash. -/
theorem pairwise_le_iff {snapshots : List Snapshot} (dated : ∀ s ∈ snapshots, s.Dated)
    (sorted : snapshots.Pairwise fun a b => a.stamp.text ≤ b.stamp.text) :
    (snapshots.Pairwise fun a b => a.stamp.nanoseconds ≤ b.stamp.nanoseconds) ↔
      ∀ a ∈ snapshots, ∀ b ∈ snapshots, ¬ Clash a.stamp b.stamp := by
  have apart : (snapshots.Pairwise fun a b => a.stamp.nanoseconds ≤ b.stamp.nanoseconds) ↔
      snapshots.Pairwise fun a b => ¬ Clash a.stamp b.stamp := by
    refine ⟨fun ordered => ?_,fun free => ?_⟩
    · exact (sorted.and ordered).imp_of_mem fun left right both =>
        (le_iff_of_text_le (dated _ left) (dated _ right) both.1).mp both.2
    · exact (sorted.and free).imp_of_mem fun left right both =>
        (le_iff_of_text_le (dated _ left) (dated _ right) both.1).mpr both.2
  rw [apart]
  refine ⟨fun free => ?_,List.pairwise_of_forall_mem_list⟩
  have self : ∀ a ∈ snapshots, ¬ Clash a.stamp a.stamp := fun a _ clash => nanoseconds_ne_of_clash clash rfl
  have reversed : snapshots.Pairwise (flip fun a b => ¬ Clash a.stamp b.stamp) :=
    free.imp fun apart clash => apart clash.symm
  intro a left b right
  exact free.forall_of_forall_of_flip self reversed left right

theorem pairwise_map_stored {snapshots : List Snapshot} :
    ((snapshots.map stored).Pairwise fun a b => a.stamp.nanoseconds ≤ b.stamp.nanoseconds) ↔
      snapshots.Pairwise fun a b => a.stamp.nanoseconds ≤ b.stamp.nanoseconds :=
  List.pairwise_map

theorem mem_map_stored_filter {snapshots : List Snapshot} {s : Snapshot} (member : s ∈ snapshots)
    (keep : Stamp → Bool) : s.stored ∈ (snapshots.filter fun t => keep t.stamp).map stored ↔ keep s.stamp = true := by
  refine ⟨fun found => ?_,fun kept => ?_⟩
  · obtain ⟨t,chosen,same⟩ := List.mem_map.mp found
    have stamps : t.stamp = s.stamp := by rw [← stored_stamp t,same,stored_stamp]
    rw [← stamps]
    exact (List.mem_filter.mp chosen).2
  · exact List.mem_map_of_mem (List.mem_filter.mpr ⟨member,kept⟩)

/-- A bound on the texts gives the same snapshots as a bound on the times exactly when it is not misread. -/
theorem filter_perm_iff {snapshots : List Snapshot} (dated : ∀ s ∈ snapshots, s.Dated) (since : Stamp) :
    ((snapshots.filter fun s => since.utc.text ≤ s.stamp.text).map stored).Perm
        ((snapshots.filter fun s => since.nanoseconds ≤ s.stamp.nanoseconds).map stored) ↔
      ∀ s ∈ snapshots, ¬ Misread since s.stamp := by
  refine ⟨fun same s member => ?_,fun read => ?_⟩
  · have left := mem_map_stored_filter member fun t => decide (since.utc.text ≤ t.text)
    have right := mem_map_stored_filter member fun t => decide (since.nanoseconds ≤ t.nanoseconds)
    rw [← text_le_iff since (dated s member).plain (dated s member).tellable]
    simpa only [decide_eq_true_eq] using left.symm.trans (same.mem_iff.trans right)
  · have filters : (snapshots.filter fun s => since.utc.text ≤ s.stamp.text) =
        snapshots.filter fun s => since.nanoseconds ≤ s.stamp.nanoseconds := by
      refine List.filter_congr fun s member => ?_
      exact decide_eq_decide.mpr
        ((text_le_iff since (dated s member).plain (dated s member).tellable).mpr (read s member))
    rw [filters]

/-- A snapshot than which none of a list is newer. -/
def Newest (snapshots : List Snapshot) (s : Snapshot) : Prop :=
  s ∈ snapshots ∧ ∀ t ∈ snapshots, t.stamp.nanoseconds ≤ s.stamp.nanoseconds

theorem exists_newest {snapshots : List Snapshot} (some : snapshots ≠ []) : ∃ s, Newest snapshots s := by
  rcases found : snapshots.argmax fun s => s.stamp.nanoseconds with _ | s
  · exact absurd (List.argmax_eq_none.mp found) some
  · refine ⟨s,List.argmax_mem found,fun t member => ?_⟩
    exact List.le_of_mem_argmax (f := fun s : Snapshot => s.stamp.nanoseconds) member found

/-- A snapshot with the greatest text is a newest one exactly when no snapshot clashes with a newest one. -/
theorem newest_iff {snapshots : List Snapshot} {s : Snapshot} (dated : ∀ t ∈ snapshots, t.Dated)
    (member : s ∈ snapshots) (greatest : ∀ t ∈ snapshots, t.stamp.text ≤ s.stamp.text) :
    Newest snapshots s ↔ ∀ g t, Newest snapshots g → t ∈ snapshots → ¬ Clash g.stamp t.stamp := by
  refine ⟨fun newest g t other found clash => ?_,fun free => ?_⟩
  · have same : g.stamp.nanoseconds = s.stamp.nanoseconds :=
      Int.le_antisymm (newest.2 g other.1) (other.2 s member)
    have apart := (le_iff_of_text_le (dated t found) (dated s member) (greatest t found)).mp (newest.2 t found)
    exact apart (clash_of_time same clash).symm
  · obtain ⟨g,newest⟩ := exists_newest (List.ne_nil_of_mem member)
    have last : g.stamp.nanoseconds ≤ s.stamp.nanoseconds :=
      (le_iff_of_text_le (dated g newest.1) (dated s member) (greatest g newest.1)).mpr (free g s newest member)
    exact ⟨member,fun t found => Int.le_trans (newest.2 t found) last⟩

end Snapshot

/-! ### What is loaded -/

namespace Store

open Snapshot

theorem chosen_before (snapshots : List Snapshot) (project : String) (since : Option String) :
    (chosen snapshots project since).Pairwise fun a b => a.row.before b.row = true := by
  refine List.pairwise_mergeSort ?_ ?_ _
  · exact fun a b c => HistoryRow.before_trans a.row b.row c.row
  · exact fun a b => HistoryRow.before_total a.row b.row

theorem chosen_sorted (snapshots : List Snapshot) (project : String) (since : Option String) :
    (chosen snapshots project since).Pairwise fun a b => a.stamp.text ≤ b.stamp.text := by
  refine (chosen_before snapshots project since).imp fun {a b} before => ?_
  exact HistoryRow.stamp_le_of_before (a := a.row) (b := b.row) before

/-- The snapshots of a project among those that saving returns. -/
def ofProject (entries : List (Occasion × Snapshot)) (key : String) : List Snapshot :=
  (completedAll entries).filter fun s => s.projectKey == projectName key

/-- A list holds the snapshots from a time on, oldest first. -/
structure Chronicle (snapshots : List Snapshot) (since : Stamp) (loaded : List Snapshot) : Prop where
  complete : loaded.Perm ((snapshots.filter fun s => since.nanoseconds ≤ s.stamp.nanoseconds).map stored)
  ordered : loaded.Pairwise fun a b => a.stamp.nanoseconds ≤ b.stamp.nanoseconds

/-- A bound is not misread for any snapshot, and no two from that time on clash. -/
structure Legible (snapshots : List Snapshot) (since : Stamp) : Prop where
  bound : ∀ s ∈ snapshots, ¬ Misread since s.stamp
  apart : ∀ a ∈ snapshots, ∀ b ∈ snapshots, since.nanoseconds ≤ a.stamp.nanoseconds →
    since.nanoseconds ≤ b.stamp.nanoseconds → ¬ Clash a.stamp b.stamp

theorem chronicle_iff {snapshots : List Snapshot} {project : String} (dated : ∀ s ∈ snapshots, s.Dated)
    (since : Stamp) :
    Chronicle (snapshots.filter fun s => s.projectKey == project) since
        ((chosen snapshots project (some since.utc.text)).map stored) ↔
      Legible (snapshots.filter fun s => s.projectKey == project) since := by
  have chosen_dated : ∀ s ∈ chosen snapshots project (some since.utc.text), s.Dated :=
    fun s member => dated s (mem_chosen.mp member).1
  have project_dated : ∀ s ∈ snapshots.filter fun s => s.projectKey == project, s.Dated :=
    fun s member => dated s (List.mem_filter.mp member).1
  have sorting : (chosen snapshots project (some since.utc.text)).Perm
      ((snapshots.filter fun s => s.projectKey == project).filter fun s => since.utc.text ≤ s.stamp.text) := by
    rw [List.filter_filter]
    simpa [chosen,Bool.and_comm] using List.mergeSort_perm _ _
  have complete := filter_perm_iff project_dated since
  have ordered := pairwise_le_iff chosen_dated (chosen_sorted snapshots project (some since.utc.text))
  rw [← pairwise_map_stored] at ordered
  -- Once the bound is read rightly, the chosen snapshots are those from that time on.
  have members (read : ∀ s ∈ snapshots.filter fun s => s.projectKey == project, ¬ Misread since s.stamp) (s : Snapshot) :
      s ∈ chosen snapshots project (some since.utc.text) ↔
        (s ∈ snapshots.filter fun s => s.projectKey == project) ∧ since.nanoseconds ≤ s.stamp.nanoseconds := by
    rw [sorting.mem_iff,List.mem_filter,decide_eq_true_eq]
    refine and_congr_right fun member => ?_
    exact (text_le_iff since (project_dated s member).plain (project_dated s member).tellable).mpr (read s member)
  refine ⟨fun chronicle => ?_,fun legible => ?_⟩
  · have read := complete.mp ((sorting.map stored).symm.trans chronicle.complete)
    have free := ordered.mp chronicle.ordered
    refine ⟨read,fun a left b right reached reached' => ?_⟩
    exact free a ((members read a).mpr ⟨left,reached⟩) b ((members read b).mpr ⟨right,reached'⟩)
  · refine ⟨(sorting.map stored).trans (complete.mpr legible.bound),ordered.mpr ?_⟩
    intro a left b right
    obtain ⟨found,reached⟩ := (members legible.bound a).mp left
    obtain ⟨found',reached'⟩ := (members legible.bound b).mp right
    exact legible.apart a found b found' reached reached'

/-- The latest snapshot of a project is one of those with the greatest text. -/
theorem latest_eq {store : Store} {snapshots : List Snapshot} (isOpen : store.isOpen = true)
    (rows : store.ledger.rows = snapshots.map row) (dated : ∀ s ∈ snapshots, s.Dated) {key : String}
    (some : (snapshots.filter fun s => s.projectKey == projectName key) ≠ []) :
    ∃ s ∈ snapshots.filter fun s => s.projectKey == projectName key, store.latest key = .ok s.stored ∧
      ∀ t ∈ snapshots.filter fun s => s.projectKey == projectName key, t.stamp.text ≤ s.stamp.text := by
  have members (s : Snapshot) : s ∈ chosen snapshots (projectName key) none ↔
      s ∈ snapshots.filter fun s => s.projectKey == projectName key := by
    simp [mem_chosen]
  obtain ⟨t,found⟩ := List.exists_mem_of_ne_nil _ some
  have filled : chosen snapshots (projectName key) none ≠ [] := List.ne_nil_of_mem ((members t).mpr found)
  have loaded := load_eq isOpen rows dated key Stamp.zero
  rw [if_pos (show Stamp.zero.isZero = true from rfl)] at loaded
  have last := List.getLast?_eq_some_getLast filled
  refine ⟨_,(members _).mp (List.getLast_mem filled),?_,fun t found => ?_⟩
  · simp only [latest,loaded,bind,Except.bind,List.getLast?_map,last,Option.map_some]
    rfl
  · exact (chosen_sorted snapshots (projectName key) none).rel_getLast_of_rel_getLast_getLast ((members t).mpr found)
      (String.le_refl _)

/-- Snapshots of distinct runs are saved into a database without rows. A load from a time on then gives those
of the project from that time on, oldest first, exactly when their times are legible, and the latest snapshot
is a newest one exactly when none of the project clashes with a newest one. -/
theorem history_order_iff (store : Store) (entries : List (Occasion × Snapshot)) (isOpen : store.isOpen = true)
    (writable : store.address.access ≠ .read) (empty : store.ledger.rows = [])
    (versions : ∀ s ∈ completedAll entries, s.schemaVersion = Ledger.supported)
    (distinct : ((completedAll entries).map (·.runId)).Nodup)
    (years : ∀ s ∈ completedAll entries, 1 ≤ s.stamp.year ∧ s.stamp.year ≤ 9999) :
    ∃ full, store.saveAll entries = .ok full ∧
      (∀ key since, since.isZero = false → ∃ loaded, full.load key since = .ok loaded ∧
        (Chronicle (ofProject entries key) since loaded ↔ Legible (ofProject entries key) since)) ∧
      ∀ key, ofProject entries key ≠ [] → ∃ s ∈ ofProject entries key, full.latest key = .ok s.stored ∧
        (Newest (ofProject entries key) s ↔
          ∀ g t, Newest (ofProject entries key) g → t ∈ ofProject entries key → ¬ Clash g.stamp t.stamp) := by
  have dated : ∀ s ∈ completedAll entries, s.Dated := by
    intro s member
    obtain ⟨entry,_,rfl⟩ := List.mem_map.mp member
    exact ⟨rfl,(years _ member).1,(years _ member).2⟩
  obtain ⟨full,run,still,rows⟩ := saveAll_rows isOpen writable versions (by rwa [empty,List.map_nil,List.nil_append])
  rw [empty,List.nil_append] at rows
  refine ⟨full,run,fun key since bounded => ?_,fun key some => ?_⟩
  · have loaded := load_eq still rows dated key since
    rw [if_neg (Bool.eq_false_iff.mp bounded)] at loaded
    exact ⟨_,loaded,chronicle_iff dated since⟩
  · obtain ⟨s,member,latest,greatest⟩ := latest_eq still rows dated some
    exact ⟨s,member,latest,newest_iff (fun t found => dated t (List.mem_filter.mp found).1) member greatest⟩

/-- A database that was made without rows. -/
def emptyStore : Store :=
  { path := "h.db", address := { name := "h.db", access := .create }, ledger := { versions := [1] } }

/-- A run that is saved at a given number of milliseconds after 10:00 on a day in 2026. -/
def runAt (runId : String) (milliseconds : Int) : Occasion × Snapshot :=
  ({ now := Stamp.zero, runId := "" },
    { runId, projectKey := "p", stamp := { nanoseconds := 1770976800000000000 + milliseconds * 1000000 } })

theorem history_order_quarter_second : ∃ full loaded s, emptyStore.saveAll [runAt "b" 500,runAt "a" 250] = .ok full ∧
    full.load "p" (runAt "a" 250).2.stamp = .ok loaded ∧
    Chronicle (ofProject [runAt "b" 500,runAt "a" 250] "p") (runAt "a" 250).2.stamp loaded ∧
    full.latest "p" = .ok (stored s) ∧ Newest (ofProject [runAt "b" 500,runAt "a" 250] "p") s := by
  have apart : ∀ a ∈ ofProject [runAt "b" 500,runAt "a" 250] "p",
      ∀ b ∈ ofProject [runAt "b" 500,runAt "a" 250] "p", ¬ Clash a.stamp b.stamp := by decide
  obtain ⟨full,run,loads,latests⟩ := history_order_iff emptyStore [runAt "b" 500,runAt "a" 250] rfl (by decide) rfl
    (by decide) (by decide) (by decide)
  obtain ⟨loaded,load,chronicle⟩ := loads "p" (runAt "a" 250).2.stamp (by decide)
  obtain ⟨s,_,latest,newest⟩ := latests "p" (by decide)
  refine ⟨full,loaded,s,run,load,chronicle.mpr ⟨by decide,?_⟩,latest,newest.mpr ?_⟩
  · exact fun a left b right _ _ => apart a left b right
  · exact fun g t greatest found => apart g greatest.1 t found

/-- Half a second after a whole one sorts before it: it is not loaded from that second on, and it is not the
latest. -/
theorem history_order_half_second : ∃ full loaded s, emptyStore.saveAll [runAt "a" 0,runAt "b" 500] = .ok full ∧
    full.load "p" (runAt "a" 0).2.stamp = .ok loaded ∧
    ¬ Chronicle (ofProject [runAt "a" 0,runAt "b" 500] "p") (runAt "a" 0).2.stamp loaded ∧
    full.latest "p" = .ok s ∧
    ∃ t ∈ ofProject [runAt "a" 0,runAt "b" 500] "p", s.stamp.nanoseconds < t.stamp.nanoseconds := by
  obtain ⟨full,run,still,rows⟩ := @saveAll_rows [runAt "a" 0,runAt "b" 500] emptyStore rfl (by decide) (by decide)
    (by decide)
  have dated : ∀ s ∈ completedAll [runAt "a" 0,runAt "b" 500], s.Dated := by
    simp only [completedAll,List.map_cons,List.map_nil,List.forall_mem_cons]
    exact ⟨⟨by decide,by decide,by decide⟩,⟨by decide,by decide,by decide⟩,List.forall_mem_nil _⟩
  obtain ⟨s,member,latest,greatest⟩ := @latest_eq _ _ still rows dated "p" (by decide)
  have later : ∀ s ∈ ofProject [runAt "a" 0,runAt "b" 500] "p",
      (∀ t ∈ ofProject [runAt "a" 0,runAt "b" 500] "p", t.stamp.text ≤ s.stamp.text) →
      ∃ t ∈ ofProject [runAt "a" 0,runAt "b" 500] "p", s.stamp.nanoseconds < t.stamp.nanoseconds := by decide
  refine ⟨full,_,s.stored,run,load_eq still rows dated _ _,fun chronicle => ?_,latest,later s member greatest⟩
  exact absurd ((chronicle_iff dated _).mp chronicle).bound (by decide)

end Store

end Depends
