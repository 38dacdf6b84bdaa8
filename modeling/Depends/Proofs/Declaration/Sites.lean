import Depends.Declaration.Table
import Depends.Proofs.Text.Distinct

/-!
Sites in the type table. What a table has room for is decided by the sites alone: the name, the file and
the scope of a declaration. A table that has all sites of another one takes nothing over from it
(`merge_eq_self`), whatever the serials and the ends of the declarations are. Looking a name up goes by candidate
scopes first and by the order of the declarations second (`find?_eq_some_iff`).
-/
namespace Depends

theorem Declaration.sameSite_iff {d e : Declaration} : d.sameSite e = true ↔ d.file = e.file ∧ d.scope = e.scope := by
  simp [Declaration.sameSite]

theorem Declaration.sameSite_refl (d : Declaration) : d.sameSite d = true := sameSite_iff.mpr ⟨rfl,rfl⟩

theorem Declaration.sameSite_trans {d e f : Declaration} (left : d.sameSite e = true) (right : e.sameSite f = true) :
    d.sameSite f = true := by
  rw [sameSite_iff] at left right ⊢
  exact ⟨left.1.trans right.1,left.2.trans right.2⟩

theorem lookup_of_mem {β : Type} {pairs : List (String × β)} (distinct : (pairs.map (·.1)).Nodup) :
    ∀ pair ∈ pairs, pairs.lookup pair.1 = some pair.2 := fun _ member => (lookup_eq_some_iff distinct).mpr member

namespace TypeTable

variable {table other : TypeTable} {name : String} {d e : Declaration}

theorem hasSite_congr (same : d.sameSite e = true) : table.hasSite name d = table.hasSite name e := by
  obtain ⟨file,scope⟩ := Declaration.sameSite_iff.mp same
  simp only [hasSite,Declaration.sameSite,file,scope]

/-- Tables with the same entries list the same names. -/
theorem eq_of_entries (same : table.entries = other.entries) : table = other := by
  obtain ⟨entries,order,inStep,_,_⟩ := table
  obtain ⟨entries',order',inStep',_,_⟩ := other
  obtain rfl : entries = entries' := same
  obtain rfl : order = order' := inStep.symm.trans inStep'
  rfl

theorem names_eq (table : TypeTable) : table.names = table.entries.map (·.1) := table.inStep.symm

theorem nodup_keys (table : TypeTable) : (table.entries.map (·.1)).Nodup := names_eq table ▸ table.distinct

/-- What is looked up under the name of an entry is the entry. -/
theorem lookup_of_entry {entry : String × List Declaration} (listed : entry ∈ table.entries) :
    table.lookup entry.1 = entry.2 := by
  rw [lookup,lookup_of_mem table.nodup_keys entry listed,Option.getD_some]

theorem mem_listing {p : String × Declaration} {entries : List (String × List Declaration)} :
    p ∈ listing entries ↔ ∃ entry ∈ entries, entry.1 = p.1 ∧ p.2 ∈ entry.2 := by
  obtain ⟨n,f⟩ := p
  simp only [listing,List.mem_flatMap,List.mem_map,Prod.mk.injEq]
  constructor
  · rintro ⟨entry,listed,f,member,rfl,rfl⟩
    exact ⟨entry,listed,rfl,member⟩
  · rintro ⟨entry,listed,rfl,member⟩
    exact ⟨entry,listed,f,member,rfl,rfl⟩

theorem mem_all {p : String × Declaration} : p ∈ table.all ↔ ∃ entry ∈ table.entries, entry.1 = p.1 ∧ p.2 ∈ entry.2 :=
  mem_listing

@[simp] theorem all_empty : ({} : TypeTable).all = [] := rfl

theorem mem_all_of_mem_lookup (member : d ∈ table.lookup name) : (name,d) ∈ table.all := by
  unfold lookup at member
  cases found : table.entries.lookup name with
  | none => simp [found] at member
  | some declarations =>
    rw [found] at member
    obtain ⟨before,after,split,-⟩ := List.lookup_eq_some_iff.mp found
    exact mem_all.mpr ⟨(name,declarations),by simp [split],rfl,member⟩

theorem exists_of_hasSite (taken : table.hasSite name d = true) : ∃ e, (name,e) ∈ table.all ∧ e.sameSite d = true := by
  obtain ⟨e,member,same⟩ := List.any_eq_true.mp taken
  exact ⟨e,mem_all_of_mem_lookup member,same⟩

theorem lookup_insertEntry (other : String) (entries : List (String × List Declaration)) :
    (insertEntry name d entries).lookup other =
      if other = name then some ((entries.lookup name).getD [] ++ [d]) else entries.lookup other := by
  induction entries with
  | nil =>
    by_cases same : other = name
    · simp [insertEntry,same]
    · simp [insertEntry,same,lookup_cons_ne same]
  | cons entry entries ih =>
    obtain ⟨key,declarations⟩ := entry
    by_cases here : key = name
    · subst here
      by_cases same : other = key
      · simp [insertEntry,same]
      · simp [insertEntry,same,lookup_cons_ne same]
    · simp only [insertEntry,beq_iff_eq,here,↓reduceIte,lookup_cons_ne (Ne.symm here)]
      by_cases found : other = key
      · simp [found,here]
      · rw [lookup_cons_ne found,lookup_cons_ne found,ih]

theorem mem_listing_insertEntry {p : String × Declaration} {entries : List (String × List Declaration)} :
    p ∈ listing (insertEntry name d entries) ↔ p ∈ listing entries ∨ p = (name,d) := by
  induction entries with
  | nil => simp [insertEntry,listing]
  | cons entry entries ih =>
    obtain ⟨key,declarations⟩ := entry
    simp only [listing] at ih ⊢
    by_cases here : key = name
    · subst here
      simp only [insertEntry,beq_self_eq_true,↓reduceIte,List.flatMap_cons,List.map_append,List.map_cons,
        List.map_nil,List.mem_append,List.mem_singleton]
      rw [or_assoc,or_assoc,or_comm (a := p = _)]
    · simp only [insertEntry,beq_iff_eq,here,↓reduceIte,List.flatMap_cons,List.mem_append,ih,or_assoc]

theorem mem_all_add {p : String × Declaration} (member : p ∈ (table.add name d).all) :
    p ∈ table.all ∨ p = (name,d) := by
  unfold add at member
  split at member
  · exact .inl member
  · exact mem_listing_insertEntry.mp member

theorem all_add_mono {p : String × Declaration} (member : p ∈ table.all) : p ∈ (table.add name d).all := by
  unfold add
  split
  · exact member
  · exact mem_listing_insertEntry.mpr (.inl member)

theorem hasSite_add_self : (table.add name d).hasSite name d = true := by
  unfold add
  split
  · assumption
  · simp [hasSite,lookup,lookup_insertEntry,Declaration.sameSite_refl]

theorem hasSite_add_mono {n : String} (taken : table.hasSite n e = true) :
    (table.add name d).hasSite n e = true := by
  unfold add
  split
  · exact taken
  · simp only [hasSite,lookup,lookup_insertEntry] at taken ⊢
    split
    · rename_i same
      subst same
      rw [Option.getD_some,List.any_append,taken,Bool.true_or]
    · exact taken

theorem merge_eq_foldl (table other : TypeTable) :
    table.merge other = other.all.foldl (fun table p => table.add p.1 p.2) table := by
  rw [merge,← other.inStep,List.foldl_map,all,listing,List.foldl_flatMap]
  refine List.foldl_ext _ _ _ fun table entry listed => ?_
  rw [lookup_of_entry listed,List.foldl_map]

theorem mem_all_merge {p : String × Declaration} (member : p ∈ (table.merge other).all) :
    p ∈ table.all ∨ p ∈ other.all := by
  rw [merge_eq_foldl] at member
  generalize other.all = added at member ⊢
  induction added generalizing table with
  | nil => exact .inl member
  | cons q added ih =>
    rcases ih member with earlier | later
    · rcases mem_all_add earlier with before | rfl
      · exact .inl before
      · exact .inr (List.mem_cons_self ..)
    · exact .inr (List.mem_cons_of_mem _ later)

theorem hasSite_merge_mono {n : String} (taken : table.hasSite n e = true) :
    (table.merge other).hasSite n e = true := by
  rw [merge_eq_foldl]
  generalize other.all = added
  induction added generalizing table with
  | nil => exact taken
  | cons p added ih => exact ih (hasSite_add_mono taken)

theorem hasSite_merge {p : String × Declaration} (member : p ∈ other.all) :
    (table.merge other).hasSite p.1 p.2 = true := by
  rw [merge_eq_foldl]
  generalize other.all = added at member
  induction added generalizing table with
  | nil => cases member
  | cons q added ih =>
    rcases List.mem_cons.mp member with rfl | later
    · have kept : ∀ (more : List (String × Declaration)) (t : TypeTable), t.hasSite p.1 p.2 = true →
          (more.foldl (fun t q => t.add q.1 q.2) t).hasSite p.1 p.2 = true := by
        intro more
        induction more with
        | nil => exact fun _ taken => taken
        | cons q more ih => exact fun t taken => ih _ (hasSite_add_mono taken)
      exact kept added _ hasSite_add_self
    · exact ih later

/-- A table that has all sites of another one stays as it is. -/
theorem merge_eq_self (taken : ∀ p ∈ other.all, table.hasSite p.1 p.2 = true) : table.merge other = table := by
  rw [merge_eq_foldl]
  generalize other.all = added at taken
  induction added with
  | nil => rfl
  | cons p added ih =>
    rw [List.foldl_cons,add,if_pos (taken p (List.mem_cons_self ..))]
    exact ih fun q member => taken q (List.mem_cons_of_mem _ member)

theorem mem_all_map {change : Declaration → Declaration} {p : String × Declaration} :
    p ∈ (table.map change).all ↔ ∃ d, (p.1,d) ∈ table.all ∧ change d = p.2 := by
  obtain ⟨n,f⟩ := p
  simp only [mem_all,map,List.mem_map]
  constructor
  · rintro ⟨entry,⟨old,listed,rfl⟩,name,member⟩
    obtain ⟨d,inside,changed⟩ := List.mem_map.mp member
    exact ⟨d,⟨old,listed,name,inside⟩,changed⟩
  · rintro ⟨d,⟨entry,listed,name,inside⟩,changed⟩
    exact ⟨_,⟨entry,listed,rfl⟩,name,changed ▸ List.mem_map_of_mem inside⟩

theorem map_id (table : TypeTable) : table.map id = table := by
  simp [map]

/-- The first table has a declaration at each site of the second one. -/
def Covers (table other : TypeTable) : Prop :=
  ∀ p ∈ other.all, ∃ d, (p.1,d) ∈ table.all ∧ d.sameSite p.2 = true

theorem Covers.add (covers : table.Covers other) (same : d.sameSite e = true) :
    (table.add name d).Covers (other.add name e) := by
  intro p member
  rcases mem_all_add member with earlier | rfl
  · obtain ⟨f,listed,site⟩ := covers p earlier
    exact ⟨f,all_add_mono listed,site⟩
  · have taken : (table.add name d).hasSite name d = true := hasSite_add_self
    obtain ⟨f,listed,site⟩ := exists_of_hasSite taken
    exact ⟨f,listed,Declaration.sameSite_trans site same⟩

theorem Covers.map (covers : table.Covers other) {change change' : Declaration → Declaration}
    (left : ∀ d : Declaration, (change d).sameSite d = true) (right : ∀ d : Declaration, d.sameSite (change' d) = true) :
    (table.map change).Covers (other.map change') := by
  intro p member
  obtain ⟨old,listed,changed⟩ := mem_all_map.mp member
  obtain ⟨d,inside,site⟩ := covers (p.1,old) listed
  refine ⟨change d,mem_all_map.mpr ⟨d,inside,rfl⟩,?_⟩
  rw [← changed]
  exact Declaration.sameSite_trans (left d) (Declaration.sameSite_trans site (right old))

/-! ### Look-up -/

/-- The scope of the declaration is a candidate and no candidate before it has a declaration of the name; in its scope
the declaration is the first one of the name. -/
structure Earliest (table : TypeTable) (name : String) (candidates : List (List String)) (d : Declaration) : Prop where
  candidate : ∃ passed left, candidates = passed ++ d.scope :: left ∧ ∀ e ∈ table.lookup name, e.scope ∉ passed
  entry : ∃ front back, table.lookup name = front ++ d :: back ∧ ∀ e ∈ front, e.scope ≠ d.scope

theorem find?_eq_some_iff {candidates : List (List String)} :
    table.find? name candidates = some d ↔ table.Earliest name candidates d := by
  simp only [find?,List.findSome?_eq_some_iff,List.find?_eq_some_iff_append,List.find?_eq_none,beq_iff_eq,
    Bool.not_eq_true',beq_eq_false_iff_ne]
  constructor
  · rintro ⟨passed,scope,left,split,⟨rfl,front,back,listed,first⟩,none⟩
    exact ⟨⟨passed,left,split,fun e member inside => none e.scope inside e member rfl⟩,front,back,listed,first⟩
  · rintro ⟨⟨passed,left,split,none⟩,front,back,listed,first⟩
    refine ⟨passed,d.scope,left,split,⟨rfl,front,back,listed,first⟩,?_⟩
    rintro scope inside e member rfl
    exact none e member inside

theorem Earliest.mem_all {candidates : List (List String)} (earliest : table.Earliest name candidates d) :
    (name,d) ∈ table.all := by
  obtain ⟨front,back,listed,-⟩ := earliest.entry
  exact mem_all_of_mem_lookup (by simp [listed])

end TypeTable
end Depends
