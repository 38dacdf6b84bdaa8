import Depends.Proofs.Declaration.Sites
import Depends.Repository.Basic

/-!
The tables that a repository keeps by file: the imports and the aliases. A change for one file leaves the
other files alone, and an alias that is bound to its target already is bound again without a change.
-/
namespace Depends

section Upsert

variable {β : Type} {key other : String} {change : Option β → β} {pairs : List (String × β)}

theorem lookup_upsert_self : (upsert key change pairs).lookup key = some (change (pairs.lookup key)) := by
  induction pairs with
  | nil => simp [upsert]
  | cons pair pairs ih =>
    obtain ⟨name,value⟩ := pair
    by_cases here : name = key
    · simp [upsert,here]
    · simp only [upsert,beq_iff_eq,here,↓reduceIte,lookup_cons_ne (Ne.symm here),ih]

theorem lookup_upsert_other (different : other ≠ key) : (upsert key change pairs).lookup other = pairs.lookup other := by
  induction pairs with
  | nil => simp [upsert,lookup_cons_ne different]
  | cons pair pairs ih =>
    obtain ⟨name,value⟩ := pair
    by_cases here : name = key
    · simp [upsert,here,lookup_cons_ne different]
    · by_cases found : other = name
      · simp [upsert,here,found]
      · simp only [upsert,beq_iff_eq,here,↓reduceIte,lookup_cons_ne found,ih]

theorem upsert_eq_self {value : β} (found : pairs.lookup key = some value) (same : change (some value) = value) :
    upsert key change pairs = pairs := by
  induction pairs with
  | nil => cases found
  | cons pair pairs ih =>
    obtain ⟨name,old⟩ := pair
    by_cases here : name = key
    · subst here
      obtain rfl : old = value := by simpa using found
      simp [upsert,same]
    · rw [lookup_cons_ne (Ne.symm here)] at found
      simp [upsert,here,ih found]

theorem upsert_keys : (upsert key change pairs).map (·.1) =
    if key ∈ pairs.map (·.1) then pairs.map (·.1) else pairs.map (·.1) ++ [key] := by
  induction pairs with
  | nil => simp [upsert]
  | cons pair pairs ih =>
    obtain ⟨name,old⟩ := pair
    by_cases here : name = key
    · simp [upsert,here]
    · by_cases later : key ∈ pairs.map (·.1)
      · simp [upsert,here,ih,later]
      · simp [upsert,here,ih,later,Ne.symm here]

theorem upsert_keys_nodup (distinct : (pairs.map (·.1)).Nodup) : ((upsert key change pairs).map (·.1)).Nodup := by
  rw [upsert_keys]
  split
  · exact distinct
  · rename_i fresh
    refine List.nodup_append.mpr ⟨distinct,List.pairwise_singleton _ _,?_⟩
    intro name member last only same
    rw [List.mem_singleton.mp only] at same
    exact fresh (same ▸ member)

end Upsert

namespace Repository

variable {r : Repository} {file other name : String}

theorem usingsOf_recordUsing_other (different : other ≠ file) (path : List String) :
    (r.recordUsing file path).usingsOf other = r.usingsOf other := by
  unfold recordUsing
  split
  · rfl
  · simp only [usingsOf,lookup_upsert_other different]

theorem usingsOf_recordUsing_self (path : List String) :
    (r.recordUsing file path).usingsOf file =
      if (r.usingsOf file).contains path then r.usingsOf file else r.usingsOf file ++ [path] := by
  unfold recordUsing
  split
  · rfl
  · simp only [usingsOf,lookup_upsert_self,Option.getD_some]

theorem alias?_recordAlias_self (target : List String) : (r.recordAlias file name target).alias? file name = some target := by
  simp only [alias?,aliasesOf,recordAlias,lookup_upsert_self,Option.getD_some]

theorem alias?_recordAlias_name (different : other ≠ name) (target : List String) :
    (r.recordAlias file name target).alias? file other = r.alias? file other := by
  simp only [alias?,aliasesOf,recordAlias,lookup_upsert_self,lookup_upsert_other different,Option.getD_some]

theorem alias?_recordAlias_file (different : other ≠ file) (target : List String) (wanted : String) :
    (r.recordAlias file name target).alias? other wanted = r.alias? other wanted := by
  simp only [alias?,aliasesOf,recordAlias,lookup_upsert_other different]

theorem recordAlias_eq_self {target : List String} (bound : r.alias? file name = some target) :
    r.recordAlias file name target = r := by
  simp only [alias?,aliasesOf] at bound
  cases found : r.aliases.lookup file with
  | none => simp [found] at bound
  | some table =>
    rw [found,Option.getD_some] at bound
    have inner : upsert name (fun _ => target) table = table := upsert_eq_self bound rfl
    rw [recordAlias,upsert_eq_self found (by simpa using inner)]

/-- Binds the aliases of a table in a file. -/
def recordAliases (r : Repository) (file : String) (table : AliasTable) : Repository :=
  table.foldl (fun r a => r.recordAlias file a.1 a.2) r

theorem recordAliases_only (r : Repository) (file : String) (table : AliasTable) :
    ∃ aliases, r.recordAliases file table = { r with aliases } := by
  induction table generalizing r with
  | nil => exact ⟨r.aliases,rfl⟩
  | cons a table ih =>
    obtain ⟨aliases,same⟩ := ih (r.recordAlias file a.1 a.2)
    exact ⟨aliases,same⟩

theorem alias?_recordAliases_other (different : other ≠ file) (table : AliasTable) (wanted : String) :
    (r.recordAliases file table).alias? other wanted = r.alias? other wanted := by
  induction table generalizing r with
  | nil => rfl
  | cons a table ih =>
    have later := ih (r := r.recordAlias file a.1 a.2)
    rw [alias?_recordAlias_file different] at later
    exact later

theorem alias?_recordAliases_absent {table : AliasTable} (absent : name ∉ table.map (·.1)) :
    (r.recordAliases file table).alias? file name = r.alias? file name := by
  induction table generalizing r with
  | nil => rfl
  | cons a table ih =>
    rw [List.map_cons,List.mem_cons,not_or] at absent
    have later := ih (r := r.recordAlias file a.1 a.2) absent.2
    rw [alias?_recordAlias_name absent.1] at later
    exact later

theorem alias?_recordAliases {table : AliasTable} (distinct : (table.map (·.1)).Nodup) :
    ∀ a ∈ table, (r.recordAliases file table).alias? file a.1 = some a.2 := by
  induction table generalizing r with
  | nil => intro a member; cases member
  | cons first table ih =>
    rw [List.map_cons,List.nodup_cons] at distinct
    intro a member
    rcases List.mem_cons.mp member with rfl | later
    · have kept : ((r.recordAlias file a.1 a.2).recordAliases file table).alias? file a.1 =
          (r.recordAlias file a.1 a.2).alias? file a.1 := alias?_recordAliases_absent distinct.1
      rw [alias?_recordAlias_self] at kept
      exact kept
    · exact ih distinct.2 a later

theorem recordAliases_eq_self {table : AliasTable} (bound : ∀ a ∈ table, r.alias? file a.1 = some a.2) :
    r.recordAliases file table = r := by
  induction table with
  | nil => rfl
  | cons a table ih =>
    have first : r.recordAlias file a.1 a.2 = r := recordAlias_eq_self (bound a (List.mem_cons_self ..))
    simp only [recordAliases,List.foldl_cons,first]
    exact ih fun other member => bound other (List.mem_cons_of_mem _ member)

end Repository
end Depends
