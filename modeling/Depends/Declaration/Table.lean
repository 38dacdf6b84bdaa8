import Depends.Declaration.Basic
import Depends.Number

/-!
The table of declared types: the declarations of each name in the order in which they were added, and the names in the
order in which they were first seen. A name has at most one declaration per scope of a file, and the first one added is
kept. The two sides of a table stay in step: the names that are listed are those with an entry, each is listed once, and
no entry is empty.
-/
namespace Depends

/-- Names with their declarations, and the names as they were first seen. -/
structure TypeTable where
  entries : List (String × List Declaration)
  order : List String
  inStep : entries.map (·.1) = order
  distinct : order.Nodup
  filled : ∀ entry ∈ entries, entry.2 ≠ []
  deriving DecidableEq, Repr

namespace TypeTable

/-- No names. -/
instance : EmptyCollection TypeTable where
  emptyCollection := ⟨[], [], rfl, List.nodup_nil, fun _ member => absurd member List.not_mem_nil⟩

/-- The declarations of a name. -/
def lookup (table : TypeTable) (name : String) : List Declaration :=
  (table.entries.lookup name).getD []

/-- The name has a declaration. -/
def contains (table : TypeTable) (name : String) : Bool := !(table.lookup name).isEmpty

/-- The names in the order in which they were first seen. -/
def names (table : TypeTable) : List String := table.order

/-- The number of names. -/
def size (table : TypeTable) : Nat := table.order.length

/-- The number of declarations. -/
def count (table : TypeTable) : Nat :=
  Number.total (table.entries.map fun entry => entry.2.length)

/-- The name already has a declaration at the same site. -/
def hasSite (table : TypeTable) (name : String) (d : Declaration) : Bool :=
  (table.lookup name).any (·.sameSite d)

/-- Appends a declaration under a name; an unseen name comes last. -/
def insertEntry (name : String) (d : Declaration) :
    List (String × List Declaration) → List (String × List Declaration)
  | [] => [(name, [d])]
  | entry :: entries =>
    if entry.1 == name then (entry.1, entry.2 ++ [d]) :: entries
    else entry :: insertEntry name d entries

/-- A name without an entry comes last among the names. -/
def listName (entries : List (String × List Declaration)) (name : String) (order : List String) : List String :=
  match entries.lookup name with
  | some _ => order
  | none => order ++ [name]

/-- Inserting a declaration keeps the names in step. -/
theorem map_insertEntry (name : String) (d : Declaration) (entries : List (String × List Declaration)) :
    (insertEntry name d entries).map (·.1) = listName entries name (entries.map (·.1)) := by
  induction entries with
  | nil => rfl
  | cons entry entries ih =>
    obtain ⟨key, declarations⟩ := entry
    by_cases here : key = name
    · simp [insertEntry, listName, here]
    · have other : (name == key) = false := beq_eq_false_iff_ne.mpr (Ne.symm here)
      simp only [insertEntry, beq_iff_eq, here, ↓reduceIte, List.map_cons, ih, listName, List.lookup_cons, other]
      cases entries.lookup name <;> rfl

/-- A listed name is not listed again. -/
theorem nodup_listName {entries : List (String × List Declaration)} (distinct : (entries.map (·.1)).Nodup)
    (name : String) : (listName entries name (entries.map (·.1))).Nodup := by
  unfold listName
  split
  · exact distinct
  · rename_i fresh
    refine List.nodup_append.mpr ⟨distinct, List.nodup_cons.mpr ⟨List.not_mem_nil, List.nodup_nil⟩, ?_⟩
    intro key member last only same
    obtain ⟨entry, listed, rfl⟩ := List.mem_map.mp member
    have missing := List.lookup_eq_none_iff.mp fresh entry listed
    rw [List.mem_singleton.mp only] at same
    exact bne_iff_ne.mp missing same.symm

/-- An entry that takes a declaration is not empty. -/
theorem filled_insertEntry {entries : List (String × List Declaration)} (filled : ∀ entry ∈ entries, entry.2 ≠ [])
    (name : String) (d : Declaration) : ∀ entry ∈ insertEntry name d entries, entry.2 ≠ [] := by
  induction entries with
  | nil =>
    intro entry member
    rw [List.mem_singleton.mp member]
    exact List.cons_ne_nil _ _
  | cons first entries ih =>
    rw [List.forall_mem_cons] at filled
    unfold insertEntry
    split
    · rw [List.forall_mem_cons]
      exact ⟨List.append_ne_nil_of_right_ne_nil _ (List.cons_ne_nil _ _), filled.2⟩
    · rw [List.forall_mem_cons]
      exact ⟨filled.1, ih filled.2⟩

/-- Adds a declaration unless its site is taken. -/
def add (table : TypeTable) (name : String) (d : Declaration) : TypeTable :=
  if table.hasSite name d then table
  else
    { entries := insertEntry name d table.entries
      order := listName table.entries name table.order
      inStep := by rw [map_insertEntry, table.inStep]
      distinct := by
        rw [← table.inStep]
        exact nodup_listName (table.inStep ▸ table.distinct) name
      filled := filled_insertEntry table.filled name d }

/-- The first declaration of a name for the first candidate scope that has one. -/
def find? (table : TypeTable) (name : String) (candidates : List (List String)) : Option Declaration :=
  candidates.findSome? fun scope => (table.lookup name).find? fun d => d.scope == scope

/-- Adds every declaration of another table, in the order of that table. -/
def merge (table other : TypeTable) : TypeTable :=
  other.order.foldl (fun table name => (other.lookup name).foldl (fun table d => table.add name d) table) table

/-- The declarations of entries, each with its name. -/
def listing (entries : List (String × List Declaration)) : List (String × Declaration) :=
  entries.flatMap fun entry => entry.2.map (entry.1, ·)

/-- The declarations of all names in order. -/
def all (table : TypeTable) : List (String × Declaration) := listing table.entries

/-- Changes every declaration. -/
def map (change : Declaration → Declaration) (table : TypeTable) : TypeTable :=
  { entries := table.entries.map fun entry => (entry.1, entry.2.map change)
    order := table.order
    inStep := by rw [← table.inStep, List.map_map]; rfl
    distinct := table.distinct
    filled := by
      intro entry member
      obtain ⟨old, listed, rfl⟩ := List.mem_map.mp member
      exact fun empty => table.filled old listed (List.map_eq_nil_iff.mp empty) }

end TypeTable

end Depends
