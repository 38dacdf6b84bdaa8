import Depends.Proofs.History.Order
import Mathlib.Data.List.Nodup

/-!
What comes back of a snapshot that was saved. A run that is there keeps the project and the time of its first save and
gets new counts and a new duration, while saving returns the snapshot that was given. So what saving returns is what
loading gives exactly when the run was first saved in the same project and at the same time and every run of the project
has a time that can be read again (`round_trip_iff`).
-/
namespace Depends

/-! ### Project names -/

theorem Text.trimChars_trimChars (cs : List Char) : trimChars (trimChars cs) = trimChars cs := by
  have trims : ∀ cs, trimChars cs = (cs.dropWhile isSpace).rdropWhile isSpace := fun _ => rfl
  have kept : ((cs.dropWhile isSpace).rdropWhile isSpace).dropWhile isSpace =
      (cs.dropWhile isSpace).rdropWhile isSpace := by
    refine List.dropWhile_eq_self_iff.mpr fun filled => ?_
    have shorter := List.rdropWhile_prefix isSpace (cs.dropWhile isSpace)
    rw [List.IsPrefix.getElem shorter filled]
    exact List.dropWhile_get_zero_not isSpace cs _
  rw [trims (trimChars cs),trims cs,kept,List.rdropWhile_idempotent]

theorem projectName_projectName (key : String) : projectName (projectName key) = projectName key := by
  have trims : Text.trim (Text.trim key) = Text.trim key := by
    rw [Text.trim,Text.trim,String.toList_ofList,Text.trimChars_trimChars]
  unfold projectName
  by_cases blank : Text.trim key = ""
  · simp only [blank,beq_self_eq_true,↓reduceIte]
    decide
  · simp [blank,trims]

namespace Snapshot

/-- The project and the time, which say where and when a snapshot is found. -/
def place (s : Snapshot) : String × Stamp := (s.projectKey,s.stamp)

/-- The snapshot with the counts and the duration of another one if that is of the same run. -/
def refreshed (old new : Snapshot) : Snapshot :=
  if old.runId = new.runId then { old with counts := new.counts, duration := new.duration } else old

@[simp] theorem refreshed_runId (old new : Snapshot) : (old.refreshed new).runId = old.runId := by
  unfold refreshed
  split <;> rfl

@[simp] theorem refreshed_place (old new : Snapshot) : (old.refreshed new).place = old.place := by
  unfold refreshed
  split <;> rfl

@[simp] theorem refreshed_schemaVersion (old new : Snapshot) :
    (old.refreshed new).schemaVersion = old.schemaVersion := by
  unfold refreshed
  split <;> rfl

end Snapshot

/-! ### What a store holds -/

namespace Store

open Snapshot

/-- Snapshots with one more that is saved: a run that is there is refreshed, a new one comes last. -/
def record (snapshots : List Snapshot) (s : Snapshot) : List Snapshot :=
  if s.runId ∈ snapshots.map (·.runId) then snapshots.map (·.refreshed s) else snapshots ++ [s]

/-- The first snapshot of a run among those that were saved. -/
def firstOf (saved : List Snapshot) (runId : String) : Option Snapshot := saved.find? (·.runId = runId)

variable {snapshots saved : List Snapshot} {s : Snapshot} {store store' : Store}

theorem put_record {ledger : Ledger} (rows : ledger.rows = snapshots.map row) (s : Snapshot) :
    (ledger.put s.row).rows = (record snapshots s).map row := by
  unfold record
  by_cases known : s.runId ∈ snapshots.map (·.runId)
  · have present : ledger.rows.any (·.runId == s.row.runId) = true := by
      rw [rows,List.any_map,List.any_eq_true]
      obtain ⟨old,member,same⟩ := List.mem_map.mp known
      exact ⟨old,member,beq_iff_eq.mpr same⟩
    rw [Ledger.put,if_pos present,if_pos known,rows,List.map_map,List.map_map]
    refine List.map_congr_left fun old _ => ?_
    by_cases same : old.runId = s.runId
    · simp [row,refreshed,HistoryRow.refreshed,same]
    · simp [row,refreshed,same]
  · have fresh : s.row.runId ∉ ledger.rows.map (·.runId) := by
      rw [rows,List.map_map]
      exact known
    rw [put_fresh fresh,if_neg known,rows,List.map_append]
    rfl

theorem runIds_record (snapshots : List Snapshot) (s : Snapshot) :
    (record snapshots s).map (·.runId) =
      if s.runId ∈ snapshots.map (·.runId) then snapshots.map (·.runId) else snapshots.map (·.runId) ++ [s.runId] := by
  unfold record
  split
  · rw [List.map_map]
    exact List.map_congr_left fun old _ => old.refreshed_runId s
  · rw [List.map_append]
    rfl

/-- What is recorded are the old snapshots, up to counts and durations, and the new one if its run is new. -/
theorem mem_record {t : Snapshot} (member : t ∈ record snapshots s) :
    (∃ old ∈ snapshots, old.runId = t.runId ∧ old.place = t.place ∧ old.schemaVersion = t.schemaVersion) ∨ t = s := by
  unfold record at member
  split at member
  · obtain ⟨old,listed,rfl⟩ := List.mem_map.mp member
    exact .inl ⟨old,listed,by simp⟩
  · rcases List.mem_append.mp member with old | new
    · exact .inl ⟨t,old,rfl,rfl,rfl⟩
    · exact .inr (List.mem_singleton.mp new)

/-- The run that is saved is there, with the counts and the duration that are given. -/
theorem exists_record (versions : ∀ t ∈ snapshots, t.schemaVersion = s.schemaVersion) :
    ∃ u ∈ record snapshots s, u = { s with projectKey := u.projectKey, stamp := u.stamp } := by
  unfold record
  split
  · rename_i known
    obtain ⟨old,member,same⟩ := List.mem_map.mp known
    refine ⟨old.refreshed s,List.mem_map_of_mem member,?_⟩
    rw [refreshed,if_pos same,← versions old member,← same]
  · exact ⟨s,by simp,rfl⟩

/-- Other runs are left as they are. -/
theorem filter_record (snapshots : List Snapshot) (s : Snapshot) :
    (record snapshots s).filter (·.runId ≠ s.runId) = snapshots.filter (·.runId ≠ s.runId) := by
  unfold record
  split
  · have kept : ∀ old ∈ snapshots.filter (·.runId ≠ s.runId), old.refreshed s = id old := by
      intro old member
      exact if_neg (of_decide_eq_true (List.mem_filter.mp member).2)
    rw [List.filter_map]
    simp only [Function.comp_def,refreshed_runId]
    rw [List.map_congr_left kept,List.map_id]
  · simp

theorem firstOf_append (saved : List Snapshot) (s : Snapshot) (runId : String) :
    firstOf (saved ++ [s]) runId = (firstOf saved runId).or (if s.runId = runId then some s else none) := by
  rw [firstOf,List.find?_append]
  by_cases same : s.runId = runId <;> simp [firstOf,same]

theorem place_firstOf_record (snapshots : List Snapshot) (s : Snapshot) (runId : String) :
    (firstOf (record snapshots s) runId).map place =
      ((firstOf snapshots runId).or (if s.runId = runId then some s else none)).map place := by
  unfold record
  split
  · rename_i known
    simp only [firstOf,List.find?_map,Function.comp_def,refreshed_runId,Option.map_map,refreshed_place]
    -- A run that is there was found before.
    cases found : snapshots.find? (·.runId = runId) with
    | some t => rfl
    | none =>
      obtain ⟨old,member,here⟩ := List.mem_map.mp known
      have other : s.runId ≠ runId := by
        rintro rfl
        simpa [here] using List.find?_eq_none.mp found old member
      simp [other]
  · rw [firstOf_append]

theorem firstOf_of_mem (distinct : (snapshots.map (·.runId)).Nodup) (member : s ∈ snapshots) :
    firstOf snapshots s.runId = some s := by
  cases found : firstOf snapshots s.runId with
  | none => simpa using List.find?_eq_none.mp found s member
  | some t =>
    have same : t.runId = s.runId := by simpa using List.find?_some found
    rw [List.inj_on_of_nodup_map distinct (List.mem_of_find?_eq_some found) member same]

/-- What a store holds after snapshots were saved into it: every run once, where and when it was first saved. -/
structure Holds (store : Store) (saved snapshots : List Snapshot) : Prop where
  rows : store.ledger.rows = snapshots.map row
  distinct : (snapshots.map (·.runId)).Nodup
  plain : ∀ s ∈ snapshots, s.stamp.offset = 0
  versions : ∀ s ∈ snapshots, s.schemaVersion = Ledger.supported
  firsts : ∀ runId, (firstOf snapshots runId).map place = (firstOf saved runId).map place

theorem Holds.begin (empty : store.ledger.rows = []) : store.Holds [] [] where
  rows := empty
  distinct := List.nodup_nil
  plain := fun _ member => absurd member List.not_mem_nil
  versions := fun _ member => absurd member List.not_mem_nil
  firsts := fun _ => rfl

theorem save_eq_ok {occasion : Occasion} {snapshot : Snapshot} (done : store.save occasion snapshot = .ok (s,store')) :
    s = snapshot.completed occasion ∧ s.schemaVersion = Ledger.supported ∧ store.isOpen = true ∧
      store' = { store with ledger := store.ledger.put s.row } := by
  simp only [save] at done
  split at done
  · cases done
  · rename_i version
    split at done
    · cases done
    · rename_i isOpen
      split at done
      · cases done
      · cases done
        exact ⟨rfl,not_not.mp version,by simpa using isOpen,rfl⟩

theorem Holds.save (holds : store.Holds saved snapshots) {occasion : Occasion} {snapshot : Snapshot}
    (done : store.save occasion snapshot = .ok (s,store')) : store'.Holds (saved ++ [s]) (record snapshots s) := by
  obtain ⟨completed,version,-,rfl⟩ := save_eq_ok done
  have plain : s.stamp.offset = 0 := by
    rw [completed]
    rfl
  refine ⟨put_record holds.rows s,?_,fun t member => ?_,fun t member => ?_,fun runId => ?_⟩
  · rw [runIds_record]
    split
    · exact holds.distinct
    · rename_i new
      refine List.nodup_append.mpr ⟨holds.distinct,List.nodup_singleton _,fun old member last only => ?_⟩
      rw [List.mem_singleton.mp only]
      exact fun same => new (same ▸ member)
  · rcases mem_record member with ⟨old,listed,-,place,-⟩ | rfl
    · rw [← (Prod.mk.inj place).2]
      exact holds.plain old listed
    · exact plain
  · rcases mem_record member with ⟨old,listed,-,-,same⟩ | rfl
    · rw [← same]
      exact holds.versions old listed
    · exact version
  · rw [place_firstOf_record,firstOf_append,Option.map_or,Option.map_or,holds.firsts]

theorem Holds.saveAll {entries : List (Occasion × Snapshot)} : ∀ {store : Store} {saved snapshots : List Snapshot},
    store.Holds saved snapshots → store.saveAll entries = .ok store' →
      ∃ kept, store'.Holds (saved ++ completedAll entries) kept := by
  induction entries with
  | nil =>
    intro store saved snapshots holds done
    cases done
    exact ⟨snapshots,by simpa [completedAll] using holds⟩
  | cons entry rest ih =>
    intro store saved snapshots holds done
    obtain ⟨occasion,snapshot⟩ := entry
    rw [Store.saveAll] at done
    cases first : store.save occasion snapshot with
    | error failure => simp [first,bind,Except.bind] at done
    | ok result =>
      obtain ⟨s,next⟩ := result
      simp only [first,bind,Except.bind] at done
      obtain ⟨kept,held⟩ := ih (holds.save first) done
      obtain ⟨rfl,-⟩ := save_eq_ok first
      exact ⟨kept,by simpa [completedAll] using held⟩

/-! ### What is loaded -/

theorem Holds.load_iff (holds : store.Holds saved snapshots) (isOpen : store.isOpen = true) (key : String)
    {loaded : List Snapshot} :
    store.load key Stamp.zero = .ok loaded ↔
      (∀ t ∈ snapshots, t.projectKey = projectName key → t.stamp.Tellable) ∧
        (chosen snapshots (projectName key) none).map stored = loaded := by
  have loads := @Store.load_iff _ _ isOpen holds.rows holds.plain key Stamp.zero loaded
  rw [if_pos (show Stamp.zero.isZero = true from rfl)] at loads
  rw [loads]
  simp [mem_chosen]

theorem chosen_perm (snapshots : List Snapshot) (project : String) :
    (chosen snapshots project none).Perm (snapshots.filter (·.projectKey == project)) := by
  simpa [chosen] using List.mergeSort_perm _ _

/-- A run of the project is chosen once. -/
theorem filter_chosen_self (distinct : (snapshots.map (·.runId)).Nodup) (member : s ∈ snapshots) :
    (chosen snapshots s.projectKey none).filter (·.runId = s.runId) = [s] := by
  have here : s ∈ chosen snapshots s.projectKey none := by simp [mem_chosen,member]
  have single : (chosen snapshots s.projectKey none).Nodup :=
    (chosen_perm snapshots s.projectKey).nodup_iff.mpr ((List.Nodup.of_map _ distinct).filter _)
  have only : ∀ t ∈ chosen snapshots s.projectKey none, decide (t.runId = s.runId) = (t == s) := by
    intro t other
    rw [Bool.eq_iff_iff,decide_eq_true_iff,beq_iff_eq]
    refine ⟨List.inj_on_of_nodup_map distinct (mem_chosen.mp other).1 member,?_⟩
    rintro rfl
    rfl
  rw [List.filter_congr only,List.filter_beq,List.count_eq_one_of_mem single here,List.replicate_one]

/-- The other runs of a project are chosen as before, in the same order. -/
theorem filter_chosen_record (distinct : (snapshots.map (·.runId)).Nodup) (s : Snapshot) (project : String) :
    (chosen (record snapshots s) project none).filter (·.runId ≠ s.runId) =
      (chosen snapshots project none).filter (·.runId ≠ s.runId) := by
  have same : ((chosen (record snapshots s) project none).filter (·.runId ≠ s.runId)).Perm
      ((chosen snapshots project none).filter (·.runId ≠ s.runId)) := by
    refine ((chosen_perm _ _).filter _).trans (List.Perm.trans ?_ ((chosen_perm _ _).filter _).symm)
    rw [List.filter_comm,filter_record,List.filter_comm]
  have listed : ∀ t ∈ (chosen snapshots project none).filter (·.runId ≠ s.runId), t ∈ snapshots :=
    fun t member => (mem_chosen.mp (List.mem_of_mem_filter member)).1
  refine List.Perm.eq_of_pairwise ?_ ((chosen_before _ _ _).filter _) ((chosen_before _ _ _).filter _) same
  intro a b left right first second
  exact List.inj_on_of_nodup_map distinct (listed a (same.mem_iff.mp left)) (listed b right)
    (HistoryRow.runId_eq_of_before first second)

/-! ### The round trip -/

/-- What saving returned is loaded once, with the duration cut to whole milliseconds, and other runs are loaded as
before. -/
structure RoundTrip (before after : Store) (s : Snapshot) : Prop where
  back : ∃ loaded, after.load s.projectKey Stamp.zero = .ok loaded ∧ loaded.filter (·.runId = s.runId) = [s.stored]
  others : ∀ key loaded, before.load key Stamp.zero = .ok loaded → ∃ loaded', after.load key Stamp.zero = .ok loaded' ∧
    loaded'.filter (·.runId ≠ s.runId) = loaded.filter (·.runId ≠ s.runId)

/-- Every run of a project can be read again: by its first save it is told in a year from 0 to 9999. -/
def Readable (saved : List Snapshot) (project : String) : Prop :=
  ∀ runId first, firstOf saved runId = some first → first.projectKey = project → first.stamp.Tellable

theorem filter_stored (snapshots : List Snapshot) (keep : String → Bool) :
    (snapshots.map stored).filter (keep ·.runId) = (snapshots.filter (keep ·.runId)).map stored := by
  rw [List.filter_map]
  rfl

theorem Holds.readable_iff (holds : store.Holds saved snapshots) (project : String) :
    (∀ t ∈ snapshots, t.projectKey = project → t.stamp.Tellable) ↔ Readable saved project := by
  constructor
  · intro told runId first found own
    have place := holds.firsts runId
    rw [found] at place
    obtain ⟨t,here,same⟩ := Option.map_eq_some_iff.mp place
    obtain ⟨key,stamp⟩ := Prod.mk.inj same
    rw [← stamp]
    exact told t (List.mem_of_find?_eq_some here) (key.trans own)
  · intro readable t member own
    have place := holds.firsts t.runId
    rw [firstOf_of_mem holds.distinct member] at place
    obtain ⟨first,found,same⟩ := Option.map_eq_some_iff.mp place.symm
    obtain ⟨key,stamp⟩ := Prod.mk.inj same
    rw [← stamp]
    exact readable t.runId first found (key.trans own)

/-- The run that was saved is there as it was given once something is there under its identifier, in its project and at
its time. -/
theorem Holds.given_mem (holds : store.Holds saved (record snapshots s))
    (versions : ∀ t ∈ snapshots, t.schemaVersion = s.schemaVersion) {t : Snapshot} (member : t ∈ record snapshots s)
    (run : t.runId = s.runId) (here : t.place = s.place) : s ∈ record snapshots s := by
  obtain ⟨u,inside,given⟩ := exists_record versions
  have runs : u.runId = s.runId := by rw [given]
  obtain rfl : t = u := List.inj_on_of_nodup_map holds.distinct member inside (run.trans runs.symm)
  obtain ⟨key,stamp⟩ := Prod.mk.inj here
  rw [key,stamp] at given
  have whole : t = s := given
  rwa [whole] at member

/-- It is there as it was given exactly when its first save was in the same project and at the same time. -/
theorem Holds.given_mem_iff (holds : store.Holds (saved ++ [s]) (record snapshots s))
    (versions : ∀ t ∈ snapshots, t.schemaVersion = s.schemaVersion) :
    s ∈ record snapshots s ↔ ∀ first, firstOf saved s.runId = some first → first.place = s.place := by
  have first := holds.firsts s.runId
  rw [firstOf_append,if_pos rfl] at first
  constructor
  · intro member earliest found
    rw [firstOf_of_mem holds.distinct member,found] at first
    exact (Option.some.inj first).symm
  · intro agrees
    obtain ⟨u,inside,given⟩ := exists_record versions
    have runs : u.runId = s.runId := by rw [given]
    rw [← runs,firstOf_of_mem holds.distinct inside,runs] at first
    refine holds.given_mem versions inside runs (Option.some.inj (first.trans ?_))
    cases found : firstOf saved s.runId with
    | none => rfl
    | some earliest => exact congrArg some (agrees earliest found)

theorem Holds.back_iff (holds : store.Holds (saved ++ [s]) (record snapshots s)) (isOpen : store.isOpen = true)
    (versions : ∀ t ∈ snapshots, t.schemaVersion = s.schemaVersion) (named : projectName s.projectKey = s.projectKey) :
    (∃ loaded, store.load s.projectKey Stamp.zero = .ok loaded ∧ loaded.filter (·.runId = s.runId) = [s.stored]) ↔
      s ∈ record snapshots s ∧ Readable (saved ++ [s]) s.projectKey := by
  have loads : ∀ loaded, store.load s.projectKey Stamp.zero = .ok loaded ↔
      Readable (saved ++ [s]) s.projectKey ∧ (chosen (record snapshots s) s.projectKey none).map stored = loaded := by
    intro loaded
    rw [holds.load_iff isOpen,named,holds.readable_iff]
  constructor
  · rintro ⟨loaded,load,only⟩
    obtain ⟨readable,rfl⟩ := (loads loaded).mp load
    have found : s.stored ∈ (chosen (record snapshots s) s.projectKey none).map stored := by
      refine List.mem_of_mem_filter (p := (·.runId = s.runId)) ?_
      rw [only]
      exact List.mem_singleton_self _
    obtain ⟨t,listed,same⟩ := List.mem_map.mp found
    have run : t.runId = s.runId := congrArg (·.runId) same
    have here : t.stored.place = s.stored.place := congrArg place same
    exact ⟨holds.given_mem versions (mem_chosen.mp listed).1 run here,readable⟩
  · rintro ⟨member,readable⟩
    refine ⟨_,(loads _).mpr ⟨readable,rfl⟩,?_⟩
    rw [filter_stored _ (· = s.runId),filter_chosen_self holds.distinct member]
    rfl

/-- Snapshots are saved into a database without rows, and then one more. What the database holds of other runs stays as
it is. The snapshot that saving returns is loaded again, and other runs are loaded as before, exactly when the run was
first saved in the same project and at the same time and every run of the project can be read. -/
theorem round_trip_iff {base store store' : Store} {entries : List (Occasion × Snapshot)} {occasion : Occasion}
    {snapshot s : Snapshot} (empty : base.ledger.rows = []) (reached : base.saveAll entries = .ok store)
    (done : store.save occasion snapshot = .ok (s,store')) :
    store'.ledger.rows.filter (·.runId ≠ s.runId) = store.ledger.rows.filter (·.runId ≠ s.runId) ∧
      (RoundTrip store store' s ↔
        (∀ first, firstOf (completedAll entries) s.runId = some first →
          first.projectKey = s.projectKey ∧ first.stamp = s.stamp) ∧
        Readable (completedAll entries ++ [s]) s.projectKey) := by
  obtain ⟨snapshots,holds⟩ := (Holds.begin empty).saveAll reached
  rw [List.nil_append] at holds
  have holds' := holds.save done
  obtain ⟨completed,version,isOpen,written⟩ := save_eq_ok done
  have versions : ∀ t ∈ snapshots, t.schemaVersion = s.schemaVersion :=
    fun t member => (holds.versions t member).trans version.symm
  have isOpen' : store'.isOpen = true := by
    rw [written]
    exact isOpen
  have named : projectName s.projectKey = s.projectKey := by
    simp only [completed,Snapshot.completed,projectName_projectName]
  have back := holds'.back_iff isOpen' versions named
  rw [holds'.given_mem_iff versions] at back
  simp only [place,Prod.mk.injEq] at back
  refine ⟨?_,fun trip => back.mp trip.back,fun right => ⟨back.mpr right,fun key loaded load => ?_⟩⟩
  · have same := congrArg (List.map row) (filter_record snapshots s)
    rw [holds.rows,holds'.rows,List.filter_map,List.filter_map]
    exact same
  · obtain ⟨told,rfl⟩ := (holds.load_iff isOpen key).mp load
    -- In the project of the snapshot all runs can be read; another project has got no run.
    have told' : ∀ t ∈ record snapshots s, t.projectKey = projectName key → t.stamp.Tellable := by
      by_cases own : projectName key = s.projectKey
      · rw [own]
        exact (holds'.readable_iff s.projectKey).mpr right.2
      · intro t member here
        rcases mem_record member with ⟨old,listed,-,same,-⟩ | rfl
        · obtain ⟨project,stamp⟩ := Prod.mk.inj same
          rw [← stamp]
          exact told old listed (project.trans here)
        · exact absurd here.symm own
    refine ⟨_,(holds'.load_iff isOpen' key).mpr ⟨told',rfl⟩,?_⟩
    rw [filter_stored _ (· ≠ s.runId),filter_stored _ (· ≠ s.runId),filter_chosen_record holds.distinct]

/-- A run again with what it found the second time. -/
def again (entry : Occasion × Snapshot) (projectKey : String) : Occasion × Snapshot :=
  (entry.1,{ entry.2 with projectKey, counts := { files := 7 }, duration := 1500999 })

/-- The same run in the same project and at the same time is found with its new counts. -/
theorem round_trip_again : ∃ store s store', emptyStore.saveAll [runAt "a" 0] = .ok store ∧
    store.save (again (runAt "a" 0) "p").1 (again (runAt "a" 0) "p").2 = .ok (s,store') ∧ RoundTrip store store' s ∧
      s.counts.files = 7 ∧ s.stored.duration = 1000000 := by
  obtain ⟨store,s,store',reached,done,given⟩ : ∃ store s store', emptyStore.saveAll [runAt "a" 0] = .ok store ∧
      store.save (again (runAt "a" 0) "p").1 (again (runAt "a" 0) "p").2 = .ok (s,store') ∧
        s = (again (runAt "a" 0) "p").2.completed (again (runAt "a" 0) "p").1 := ⟨_,_,_,rfl,rfl,rfl⟩
  refine ⟨store,s,store',reached,done,(round_trip_iff rfl reached done).2.mpr ⟨fun first found => ?_,?_⟩,?_⟩
  · rw [given] at found ⊢
    obtain rfl := Option.some.inj found
    decide
  · intro runId first found _
    have told : ∀ t ∈ completedAll [runAt "a" 0] ++ [s], 0 ≤ t.stamp.year ∧ t.stamp.year ≤ 9999 := by
      rw [given]
      decide
    exact told first (List.mem_of_find?_eq_some found)
  · rw [given]
    decide

/-- The same run in another project is not found there. -/
theorem round_trip_moved : ∃ store s store', emptyStore.saveAll [runAt "a" 0] = .ok store ∧
    store.save (again (runAt "a" 0) "q").1 (again (runAt "a" 0) "q").2 = .ok (s,store') ∧ s.projectKey = "q" ∧
      store'.load "q" Stamp.zero = .ok [] ∧ ¬ RoundTrip store store' s := by
  obtain ⟨store,s,store',reached,done,own,isOpen,rows⟩ : ∃ store s store',
      emptyStore.saveAll [runAt "a" 0] = .ok store ∧
        store.save (again (runAt "a" 0) "q").1 (again (runAt "a" 0) "q").2 = .ok (s,store') ∧ s.projectKey = "q" ∧
          store'.isOpen = true ∧ store'.ledger.rows.map (·.projectKey) = ["p"] :=
    ⟨_,_,_,rfl,rfl,by decide,rfl,by decide +kernel⟩
  have load : store'.load "q" Stamp.zero = .ok [] := by
    obtain ⟨kept,holds⟩ := (Holds.begin rfl).saveAll reached
    have held := holds.save done
    rw [held.rows,List.map_map] at rows
    have foreign : ∀ t ∈ record kept s, t.projectKey ≠ projectName "q" := by
      intro t member
      have listed : t.projectKey ∈ ["p"] := rows ▸ List.mem_map_of_mem member
      rw [List.mem_singleton.mp listed]
      decide
    have none : chosen (record kept s) (projectName "q") none = [] :=
      List.eq_nil_iff_forall_not_mem.mpr fun t member => foreign t (mem_chosen.mp member).1 (mem_chosen.mp member).2.1
    refine (held.load_iff isOpen "q").mpr ⟨fun t member here => absurd here (foreign t member),?_⟩
    rw [none]
    rfl
  refine ⟨store,s,store',reached,done,own,load,?_⟩
  rintro ⟨⟨loaded,again,only⟩,-⟩
  rw [own,load] at again
  cases again
  cases only

end Store
end Depends
