import Depends.Proofs.Declaration.Sites
import Mathlib.Data.List.Basic

/-!
Merging type tables and adding to them. Additions under different names can change places once the name that
moves forward has been seen, so merging a table with one more declaration is merging it and adding the
declaration (`merge_add`). Changes that keep sites go through additions and merges (`map_add`, `map_merge`).
-/
namespace Depends.TypeTable

variable {table other : TypeTable} {name : String} {d : Declaration}

/-! ### Additions -/

/-- A name is listed when it is not among the names of the entries. -/
theorem listName_eq (entries : List (String × List Declaration)) (name : String) :
    listName entries name (entries.map (·.1)) =
      if name ∈ entries.map (·.1) then entries.map (·.1) else entries.map (·.1) ++ [name] := by
  unfold listName
  cases found : entries.lookup name with
  | some declarations =>
    obtain ⟨before,after,split,-⟩ := List.lookup_eq_some_iff.mp found
    rw [if_pos (by simp [split])]
  | none =>
    have fresh : name ∉ entries.map (·.1) := by
      intro member
      obtain ⟨entry,listed,rfl⟩ := List.mem_map.mp member
      exact bne_iff_ne.mp (List.lookup_eq_none_iff.mp found entry listed) rfl
    rw [if_neg fresh]

theorem add_taken (taken : table.hasSite name d = true) : table.add name d = table := if_pos taken

theorem entries_add (free : table.hasSite name d = false) :
    (table.add name d).entries = insertEntry name d table.entries := by
  rw [add,if_neg (Bool.eq_false_iff.mp free)]

theorem mem_names_of_hasSite (taken : table.hasSite name d = true) : name ∈ table.names := by
  obtain ⟨e,member,-⟩ := exists_of_hasSite taken
  obtain ⟨entry,listed,same,-⟩ := mem_all.mp member
  exact names_eq table ▸ List.mem_map.mpr ⟨entry,listed,same⟩

theorem names_add : (table.add name d).names =
    if name ∈ table.names then table.names else table.names ++ [name] := by
  cases site : table.hasSite name d with
  | true => rw [add_taken site,if_pos (mem_names_of_hasSite site)]
  | false => rw [names_eq,entries_add site,map_insertEntry,listName_eq,names_eq]

theorem names_add_mono {wanted : String} (seen : wanted ∈ table.names) : wanted ∈ (table.add name d).names := by
  rw [names_add]
  split
  · exact seen
  · exact List.mem_append_left _ seen

theorem mem_names_add : name ∈ (table.add name d).names := mem_names_of_hasSite hasSite_add_self

/-- The declarations of a table are those that looking its names up gives. -/
theorem all_eq (table : TypeTable) : table.all = table.names.flatMap fun name => (table.lookup name).map (name,·) := by
  rw [names_eq,List.flatMap_map]
  refine List.flatMap_congr fun entry listed => ?_
  rw [lookup_of_entry listed]

theorem length_all (table : TypeTable) : table.all.length = table.count := by
  simp only [all,listing,List.length_flatMap,List.length_map]
  rfl

/-! ### Merging one more declaration -/

theorem insertEntry_comm {seen : String} {e : Declaration} {entries : List (String × List Declaration)}
    (different : name ≠ seen) (present : seen ∈ entries.map (·.1)) :
    insertEntry name d (insertEntry seen e entries) = insertEntry seen e (insertEntry name d entries) := by
  induction entries with
  | nil => cases present
  | cons entry entries ih =>
    obtain ⟨key,declarations⟩ := entry
    by_cases here : key = seen
    · subst here
      simp [insertEntry,Ne.symm different]
    · have later : seen ∈ entries.map (·.1) := (List.mem_cons.mp present).resolve_left (Ne.symm here)
      by_cases other : key = name
      · subst other
        simp [insertEntry,different]
      · simp [insertEntry,here,other,ih later]

theorem hasSite_add_other {wanted : String} {e : Declaration} (different : wanted ≠ name) :
    (table.add name d).hasSite wanted e = table.hasSite wanted e := by
  unfold TypeTable.add
  split
  · rfl
  · simp [hasSite,lookup,lookup_insertEntry,different]

/-- A name that was seen before can take its declaration before or after another name. -/
theorem add_comm {seen : String} {e : Declaration} (different : name ≠ seen) (present : seen ∈ table.names) :
    (table.add seen e).add name d = (table.add name d).add seen e := by
  cases second : table.hasSite seen e with
  | true =>
    have still : (table.add name d).hasSite seen e = true := (hasSite_add_other (Ne.symm different)).trans second
    rw [add_taken second,add_taken still]
  | false =>
    have still : (table.add name d).hasSite seen e = false := (hasSite_add_other (Ne.symm different)).trans second
    cases first : table.hasSite name d with
    | true =>
      have taken : (table.add seen e).hasSite name d = true := (hasSite_add_other different).trans first
      rw [add_taken taken,add_taken first]
    | false =>
      have free : (table.add seen e).hasSite name d = false := (hasSite_add_other different).trans first
      refine eq_of_entries ?_
      rw [entries_add free,entries_add still,entries_add first,entries_add second]
      exact insertEntry_comm different (names_eq table ▸ present)

/-- The declarations are added one by one. -/
def addListing (table : TypeTable) (added : List (String × Declaration)) : TypeTable :=
  added.foldl (fun table p => table.add p.1 p.2) table

theorem addListing_add {added : List (String × Declaration)} (others : ∀ p ∈ added, p.1 ≠ name)
    (present : name ∈ table.names) : (table.add name d).addListing added = (table.addListing added).add name d := by
  induction added generalizing table with
  | nil => rfl
  | cons p added ih =>
    rw [List.forall_mem_cons] at others
    rw [addListing,addListing,List.foldl_cons,List.foldl_cons,add_comm others.1 present]
    exact ih others.2 (names_add_mono present)

private theorem addListing_insertEntry {entries : List (String × List Declaration)}
    (distinct : (entries.map (·.1)).Nodup) (filled : ∀ entry ∈ entries, entry.2 ≠ []) :
    ∀ table : TypeTable, table.addListing (listing (insertEntry name d entries)) =
      (table.addListing (listing entries)).add name d := by
  induction entries with
  | nil => intro table; rfl
  | cons entry entries ih =>
    intro table
    obtain ⟨key,declarations⟩ := entry
    rw [List.map_cons,List.nodup_cons] at distinct
    rw [List.forall_mem_cons] at filled
    by_cases here : key = name
    · subst here
      obtain ⟨before,last,rfl⟩ := (List.eq_nil_or_concat declarations).resolve_left filled.1
      rw [List.concat_eq_append]
      -- The name is seen before the later entries come, so the new declaration may as well come after them.
      have seen : key ∈ ((before ++ [last]).foldl (fun table d => table.add key d) table).names := by
        rw [List.foldl_append]
        exact mem_names_add
      have others : ∀ p ∈ listing entries, p.1 ≠ key := by
        intro p member same
        obtain ⟨entry,listed,key',-⟩ := mem_listing.mp member
        exact distinct.1 (List.mem_map.mpr ⟨entry,listed,key'.trans same⟩)
      have moved := addListing_add (d := d) others seen
      simpa [addListing,listing,insertEntry,List.foldl_append,List.foldl_map] using moved
    · have later := ih distinct.2 filled.2 (declarations.foldl (fun table d => table.add key d) table)
      simpa [addListing,listing,insertEntry,here,List.foldl_append,List.foldl_map] using later

/-- Merging a table with one more declaration is merging the table and adding the declaration. -/
theorem merge_add (table other : TypeTable) (name : String) (d : Declaration) :
    table.merge (other.add name d) = (table.merge other).add name d := by
  cases taken : other.hasSite name d with
  | true =>
    obtain ⟨e,member,site⟩ := exists_of_hasSite taken
    have merged : (table.merge other).hasSite name d = true := by
      rw [← hasSite_congr site]
      exact hasSite_merge member
    rw [add_taken taken,add_taken merged]
  | false =>
    rw [merge_eq_foldl,merge_eq_foldl,all,entries_add taken]
    exact addListing_insertEntry other.nodup_keys other.filled table

/-! ### Changes that keep sites -/

theorem lookup_map (change : Declaration → Declaration) (table : TypeTable) (name : String) :
    (table.map change).lookup name = (table.lookup name).map change := by
  simp only [lookup,map]
  generalize table.entries = entries
  induction entries with
  | nil => rfl
  | cons entry entries ih =>
    obtain ⟨key,declarations⟩ := entry
    by_cases here : name = key
    · simp [here]
    · rw [List.map_cons,lookup_cons_ne here,lookup_cons_ne here,ih]

theorem entries_map (change : Declaration → Declaration) (table : TypeTable) :
    (table.map change).entries = table.entries.map fun entry => (entry.1,entry.2.map change) := rfl

theorem insertEntry_map (change : Declaration → Declaration) (entries : List (String × List Declaration)) :
    (insertEntry name d entries).map (fun entry => (entry.1,entry.2.map change)) =
      insertEntry name (change d) (entries.map fun entry => (entry.1,entry.2.map change)) := by
  induction entries with
  | nil => rfl
  | cons entry entries ih =>
    by_cases here : entry.1 = name
    · simp [insertEntry,here]
    · simp [insertEntry,here,ih]

theorem map_add {change : Declaration → Declaration} (site : ∀ d, (change d).sameSite d = true)
    (table : TypeTable) (name : String) (d : Declaration) :
    (table.add name d).map change = (table.map change).add name (change d) := by
  have taken : (table.map change).hasSite name (change d) = table.hasSite name d := by
    have same : ∀ e, (change e).sameSite (change d) = e.sameSite d := by
      intro e
      obtain ⟨file,scope⟩ := Declaration.sameSite_iff.mp (site e)
      obtain ⟨file',scope'⟩ := Declaration.sameSite_iff.mp (site d)
      simp only [Declaration.sameSite,file,scope,file',scope']
    simp only [hasSite,lookup_map,List.any_map,Function.comp_def,same]
  cases site : table.hasSite name d with
  | true => rw [add_taken site,add_taken (taken.trans site)]
  | false =>
    refine eq_of_entries ?_
    rw [entries_add (taken.trans site),entries_map,entries_map,entries_add site]
    exact insertEntry_map change table.entries

theorem all_map (change : Declaration → Declaration) (table : TypeTable) :
    (table.map change).all = table.all.map fun p => (p.1,change p.2) := by
  simp [all,listing,map,List.flatMap_map,List.map_flatMap,Function.comp_def]

theorem map_merge {change : Declaration → Declaration} (site : ∀ d, (change d).sameSite d = true)
    (table other : TypeTable) : (table.merge other).map change = (table.map change).merge (other.map change) := by
  rw [merge_eq_foldl,merge_eq_foldl,all_map,List.foldl_map]
  generalize other.all = added
  induction added generalizing table with
  | nil => rfl
  | cons p added ih => rw [List.foldl_cons,List.foldl_cons,ih,map_add site]

theorem map_eq_self {change : Declaration → Declaration} (fixed : ∀ p ∈ table.all, change p.2 = p.2) :
    table.map change = table := by
  have entries : table.entries.map (fun entry => (entry.1,entry.2.map change)) = table.entries.map id := by
    refine List.map_congr_left fun entry listed => Prod.ext rfl ?_
    have kept : entry.2.map change = entry.2.map id :=
      List.map_congr_left fun d member => fixed (entry.1,d) (mem_all.mpr ⟨entry,listed,rfl,member⟩)
    exact kept.trans (List.map_id _)
  exact eq_of_entries (entries.trans (List.map_id _))

end Depends.TypeTable
