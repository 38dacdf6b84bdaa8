import Depends.History.Store
import Depends.Proofs.Time.RoundTrip

/-!
What a store keeps of the snapshots that are saved into it, and what comes back. Runs that are not there yet
are appended in the order of saving (`saveAll_rows`), and a row whose time can be read gives back its snapshot with the
duration cut to whole milliseconds (`ofRow_row_iff`), so what is loaded can be told from the snapshots alone
(`load_iff`).
-/
namespace Depends

namespace Snapshot

/-- A snapshot as it comes back, with the duration cut to whole milliseconds. -/
def stored (s : Snapshot) : Snapshot :=
  { s with duration := s.duration.tdiv Duration.millisecond * Duration.millisecond }

@[simp] theorem stored_stamp (s : Snapshot) : s.stored.stamp = s.stamp := rfl

/-- The time is told without offset, in a year that is not before the first and has four digits. -/
structure Dated (s : Snapshot) : Prop where
  plain : s.stamp.offset = 0
  low : 1 ≤ s.stamp.year
  high : s.stamp.year ≤ 9999

theorem Dated.tellable {s : Snapshot} (dated : s.Dated) : s.stamp.Tellable :=
  ⟨Int.le_trans (by decide) dated.low,dated.high⟩

theorem ofRow_row_iff {s t : Snapshot} (plain : s.stamp.offset = 0) :
    ofRow s.row = .ok t ↔ s.stamp.Tellable ∧ s.stored = t := by
  by_cases told : s.stamp.Tellable
  · have same : s.stamp.utc = s.stamp := by rw [Stamp.utc,← plain]
    have back : ofRow s.row = .ok s.stored := by
      simp only [ofRow,row,Stamp.ofText?_text plain told,same]
      rfl
    rw [back]
    simp [told]
  · simp [ofRow,row,Stamp.ofText?_untold plain told,told]

/-- Rows are read exactly when all of them can be. -/
theorem mapM_ofRow_iff {snapshots loaded : List Snapshot} (plain : ∀ s ∈ snapshots, s.stamp.offset = 0) :
    (snapshots.map row).mapM ofRow = .ok loaded ↔
      (∀ s ∈ snapshots, s.stamp.Tellable) ∧ snapshots.map stored = loaded := by
  induction snapshots generalizing loaded with
  | nil => simp [pure,Except.pure]
  | cons s rest ih =>
    rw [List.forall_mem_cons] at plain
    rw [List.map_cons,List.mapM_cons,List.forall_mem_cons,List.map_cons]
    constructor
    · intro read
      cases first : ofRow s.row with
      | error failure => simp [first,bind,Except.bind] at read
      | ok t =>
        cases tail : (rest.map row).mapM ofRow with
        | error failure => simp [first,tail,bind,Except.bind] at read
        | ok more =>
          obtain ⟨told,rfl⟩ := (ofRow_row_iff plain.1).mp first
          obtain ⟨others,rfl⟩ := (ih plain.2).mp tail
          have whole : s.stored :: rest.map stored = loaded := by
            simpa [first,tail,bind,Except.bind,pure,Except.pure] using read
          exact ⟨⟨told,others⟩,whole⟩
    · rintro ⟨told,rfl⟩
      rw [(ofRow_row_iff plain.1).mpr ⟨told.1,rfl⟩,(ih plain.2).mpr ⟨told.2,rfl⟩]
      rfl

end Snapshot

/-! ### Saving -/

namespace Store

/-- Saves snapshots one after another, each on its own occasion. -/
def saveAll (store : Store) : List (Occasion × Snapshot) → Except Failure Store
  | [] => .ok store
  | (occasion,snapshot) :: rest => do
    let (_,store) ← store.save occasion snapshot
    store.saveAll rest

/-- The snapshots that saving returns. -/
def completedAll (entries : List (Occasion × Snapshot)) : List Snapshot :=
  entries.map fun entry => entry.2.completed entry.1

theorem put_fresh {ledger : Ledger} {row : HistoryRow} (fresh : row.runId ∉ ledger.rows.map (·.runId)) :
    ledger.put row = { ledger with rows := ledger.rows ++ [row] } := by
  have absent : ledger.rows.any (·.runId == row.runId) = false := by
    rw [List.any_eq_false]
    intro old member same
    exact fresh (List.mem_map.mpr ⟨old,member,beq_iff_eq.mp same⟩)
  simp [Ledger.put,absent]

theorem save_fresh {store : Store} {occasion : Occasion} {snapshot : Snapshot} (isOpen : store.isOpen = true)
    (writable : store.address.access ≠ .read)
    (version : (snapshot.completed occasion).schemaVersion = Ledger.supported)
    (fresh : (snapshot.completed occasion).runId ∉ store.ledger.rows.map (·.runId)) :
    store.save occasion snapshot = .ok (snapshot.completed occasion,
      { store with ledger :=
        { store.ledger with rows := store.ledger.rows ++ [(snapshot.completed occasion).row] } }) := by
  have locked : (store.address.access == Access.read) = false := beq_eq_false_iff_ne.mpr writable
  simp only [save,version,isOpen,locked,ne_eq,not_true_eq_false,↓reduceIte,Bool.not_true,Bool.false_eq_true]
  rw [put_fresh fresh]

/-- Runs of which none is there yet are appended in the order of saving. -/
theorem saveAll_rows {entries : List (Occasion × Snapshot)} {store : Store} (isOpen : store.isOpen = true)
    (writable : store.address.access ≠ .read)
    (versions : ∀ s ∈ completedAll entries, s.schemaVersion = Ledger.supported)
    (distinct : (store.ledger.rows.map (·.runId) ++ (completedAll entries).map (·.runId)).Nodup) :
    ∃ full, store.saveAll entries = .ok full ∧ full.isOpen = true ∧
      full.ledger.rows = store.ledger.rows ++ (completedAll entries).map Snapshot.row := by
  induction entries generalizing store with
  | nil => exact ⟨store,rfl,isOpen,by simp [completedAll]⟩
  | cons entry rest ih =>
    obtain ⟨occasion,snapshot⟩ := entry
    have fresh : (snapshot.completed occasion).runId ∉ store.ledger.rows.map (·.runId) := by
      intro known
      exact (List.nodup_append.mp distinct).2.2 _ known _ (List.mem_cons_self ..) rfl
    have first := save_fresh isOpen writable (versions _ (List.mem_cons_self ..)) fresh
    have next := @ih { store with ledger :=
        { store.ledger with rows := store.ledger.rows ++ [(snapshot.completed occasion).row] } } isOpen writable
      (fun s member => versions s (List.mem_cons_of_mem _ member))
      (by simpa [completedAll,Snapshot.row] using distinct)
    obtain ⟨full,run,still,rows⟩ := next
    refine ⟨full,?_,still,?_⟩
    · rw [saveAll,first]
      exact run
    · rw [rows,List.append_assoc]
      rfl

/-! ### Loading -/

/-- The snapshots of a project from a time text on if one is given, in the order of their rows. -/
def chosen (snapshots : List Snapshot) (project : String) (since : Option String) : List Snapshot :=
  (snapshots.filter fun s => s.projectKey == project && since.all fun start => start ≤ s.stamp.text).mergeSort
    fun a b => a.row.before b.row

theorem select_chosen {ledger : Ledger} {snapshots : List Snapshot} (rows : ledger.rows = snapshots.map Snapshot.row)
    (project : String) (since : Option String) :
    ledger.select project since = (chosen snapshots project since).map Snapshot.row := by
  rw [Ledger.select,chosen,rows,List.filter_map]
  exact (List.map_mergeSort (f := Snapshot.row) (s := HistoryRow.before) fun _ _ _ _ => rfl).symm

theorem mem_chosen {snapshots : List Snapshot} {project : String} {since : Option String} {s : Snapshot} :
    s ∈ chosen snapshots project since ↔
      s ∈ snapshots ∧ s.projectKey = project ∧ ∀ start ∈ since, start ≤ s.stamp.text := by
  simp [chosen,List.mem_mergeSort,Option.all_eq_true]

theorem load_iff {store : Store} {snapshots : List Snapshot} (isOpen : store.isOpen = true)
    (rows : store.ledger.rows = snapshots.map Snapshot.row) (plain : ∀ s ∈ snapshots, s.stamp.offset = 0) (key : String)
    (since : Stamp) {loaded : List Snapshot} :
    store.load key since = .ok loaded ↔
      (∀ s ∈ chosen snapshots (projectName key) (if since.isZero then none else some since.utc.text),
        s.stamp.Tellable) ∧
      (chosen snapshots (projectName key) (if since.isZero then none else some since.utc.text)).map Snapshot.stored =
        loaded := by
  rw [load,if_pos isOpen,select_chosen rows]
  exact Snapshot.mapM_ofRow_iff fun s member => plain s (mem_chosen.mp member).1

theorem load_eq {store : Store} {snapshots : List Snapshot} (isOpen : store.isOpen = true)
    (rows : store.ledger.rows = snapshots.map Snapshot.row) (dated : ∀ s ∈ snapshots, s.Dated) (key : String)
    (since : Stamp) :
    store.load key since = .ok ((chosen snapshots (projectName key)
      (if since.isZero then none else some since.utc.text)).map Snapshot.stored) := by
  refine (load_iff isOpen rows (fun s member => (dated s member).plain) key since).mpr ⟨fun s member => ?_,rfl⟩
  exact (dated s (mem_chosen.mp member).1).tellable

end Store

end Depends
