import Depends.Proofs.Declaration.Merging
import Depends.Proofs.Text.Distinct
import Mathlib.Algebra.GroupWithZero.Nat
import Mathlib.Data.List.Induction
import Mathlib.Logic.Function.Basic

/-!
Tables that are added to and merged into each other. A table receives what is added to it, and with a table that is merged
into it all that this one had received. So merging is associative, has the empty table as neutral element and does
nothing the second time (`merge_idempotent_monoid`). Whatever is done, each table holds of every name the first
declaration that it received at each site, in the order in which they came, and lists the names in the order in which
they were first seen (`tables_represent`).
-/
namespace Depends.TypeTable

variable {table : TypeTable} {name other : String} {d : Declaration} {received : List (String × Declaration)}

/-- An operation on numbered tables. -/
inductive Operation where
  | add (table : Nat) (name : String) (d : Declaration)
  | merge (table other : Nat)
  deriving DecidableEq, Repr

/-- The tables after one more operation. -/
def operate (tables : Nat → TypeTable) : Operation → Nat → TypeTable
  | .add i name d => Function.update tables i ((tables i).add name d)
  | .merge i j => Function.update tables i ((tables i).merge (tables j))

/-- The tables after operations; all of them are empty at first. -/
def tablesAfter (operations : List Operation) : Nat → TypeTable := operations.foldl operate fun _ => {}

/-- What the tables have received after one more operation. -/
def receive (received : Nat → List (String × Declaration)) : Operation → Nat → List (String × Declaration)
  | .add i name d => Function.update received i (received i ++ [(name,d)])
  | .merge i j => Function.update received i (received i ++ received j)

/-- What each table has received after operations, first come first. -/
def receivedAfter (operations : List Operation) : Nat → List (String × Declaration) :=
  operations.foldl receive fun _ => []

/-- What was received under a name. -/
def under (received : List (String × Declaration)) (name : String) : List Declaration :=
  (received.filter (·.1 = name)).map (·.2)

/-! ### Merging as receiving -/

/-- The table that has received declarations one by one. -/
def ofReceived (received : List (String × Declaration)) : TypeTable :=
  received.foldl (fun table p => table.add p.1 p.2) {}

theorem ofReceived_snoc (received : List (String × Declaration)) (name : String) (d : Declaration) :
    ofReceived (received ++ [(name,d)]) = (ofReceived received).add name d := by
  rw [ofReceived,List.foldl_append]
  rfl

/-- A table is merged by adding what it has received. -/
theorem merge_ofReceived (first second : List (String × Declaration)) :
    (ofReceived first).merge (ofReceived second) = ofReceived (first ++ second) := by
  induction second using List.reverseRecOn with
  | nil => rw [List.append_nil]; rfl
  | append_singleton second p ih =>
    rw [ofReceived_snoc,merge_add,ih,← ofReceived_snoc,List.append_assoc]

/-- Tables that are merged one after the other are merged with what they make together. -/
theorem merge_assoc (table second third : TypeTable) :
    (table.merge second).merge third = table.merge (second.merge third) := by
  rw [merge_eq_foldl _ third,merge_eq_foldl second third]
  generalize third.all = added
  induction added generalizing second with
  | nil => rfl
  | cons p added ih => rw [List.foldl_cons,List.foldl_cons,← ih,merge_add]

theorem hasSite_of_mem {p : String × Declaration} (member : p ∈ table.all) : table.hasSite p.1 p.2 = true := by
  obtain ⟨entry,listed,key,inside⟩ := mem_all.mp member
  rw [hasSite,← key,lookup_of_entry listed]
  exact List.any_eq_true.mpr ⟨p.2,inside,Declaration.sameSite_refl p.2⟩

/-- Merging the tables that additions make is associative, the empty table is neutral on both sides, and a table that
is merged once more, or into itself, adds nothing: names, declarations and both orders stay the same. -/
theorem merge_idempotent_monoid (first second third : List (String × Declaration)) :
    let a := ofReceived first
    let b := ofReceived second
    let c := ofReceived third
    (a.merge b).merge c = a.merge (b.merge c) ∧ a.merge {} = a ∧ TypeTable.merge {} a = a ∧
      (a.merge b).merge b = a.merge b ∧ a.merge a = a := by
  intro a b c
  refine ⟨merge_assoc a b c,rfl,merge_ofReceived [] first,?_,?_⟩
  · apply merge_eq_self
    intro p member
    exact hasSite_merge member
  · apply merge_eq_self
    intro p member
    exact hasSite_of_mem member

theorem tablesAfter_eq (operations : List Operation) (i : Nat) :
    tablesAfter operations i = ofReceived (receivedAfter operations i) := by
  induction operations using List.reverseRecOn generalizing i with
  | nil => rfl
  | append_singleton operations last ih =>
    simp only [tablesAfter,receivedAfter,List.foldl_append,List.foldl_cons,List.foldl_nil] at ih ⊢
    generalize operations.foldl operate (fun _ => {}) = tables at ih
    generalize operations.foldl receive (fun _ => []) = received at ih
    cases last with
    | add k name d =>
      by_cases here : i = k
      · subst here
        simp only [operate,receive,Function.update_self,ih,ofReceived_snoc]
      · simp only [operate,receive,Function.update_of_ne here,ih]
    | merge k j =>
      by_cases here : i = k
      · subst here
        simp only [operate,receive,Function.update_self,ih,merge_ofReceived]
      · simp only [operate,receive,Function.update_of_ne here,ih]

/-! ### What a table holds -/

/-- What an addition does to the declarations of a name: those of other names stay as they are, and so do those of its
own name when the site is taken; else the new one comes last. -/
theorem lookup_add_cases (table : TypeTable) (received : List (String × Declaration)) (name : String) (d : Declaration)
    (other : String) :
    (table.add name d).lookup other = table.lookup other ∧
        under (received ++ [(name,d)]) other = under received other ∨
      name = other ∧ under (received ++ [(name,d)]) other = under received other ++ [d] ∧
        (table.hasSite other d = true ∧ (table.add name d).lookup other = table.lookup other ∨
          table.hasSite other d = false ∧ (table.add name d).lookup other = table.lookup other ++ [d]) := by
  by_cases same : name = other
  · subst same
    refine .inr ⟨rfl,by simp [under],?_⟩
    cases site : table.hasSite name d with
    | true => exact .inl ⟨rfl,by rw [add_taken site]⟩
    | false => exact .inr ⟨rfl,by simp [lookup,entries_add site,lookup_insertEntry]⟩
  · refine .inl ⟨?_,by simp [under,same]⟩
    cases site : table.hasSite name d with
    | true => rw [add_taken site]
    | false => simp [lookup,entries_add site,lookup_insertEntry,Ne.symm same]

/-- The table holds what it has received: the names are those received, in the order in which they were first seen, and
of each name it has declarations in the order in which they came, the first one at each site and no other. -/
structure Holds (table : TypeTable) (received : List (String × Declaration)) : Prop where
  names : table.names = (received.map (·.1)).eraseDups
  order : ∀ name, (table.lookup name).Sublist (under received name)
  first : ∀ name (site : Declaration),
    (table.lookup name).find? (·.sameSite site) = (under received name).find? (·.sameSite site)
  apart : ∀ name, (table.lookup name).Pairwise fun d e => d.sameSite e = false

theorem Holds.empty : Holds {} [] :=
  ⟨rfl,fun _ => .slnil,fun _ _ => rfl,fun _ => .nil⟩

theorem hasSite_eq_false : table.hasSite name d = false ↔ ∀ e ∈ table.lookup name, e.sameSite d = false := by
  rw [hasSite,List.any_eq_false]
  simp only [Bool.not_eq_true]

/-- A declaration at a site that is taken is not the first one there. -/
theorem Holds.find?_taken (holds : table.Holds received) (taken : table.hasSite name d = true) (site : Declaration) :
    (under received name ++ [d]).find? (·.sameSite site) = (under received name).find? (·.sameSite site) := by
  rw [List.find?_append]
  cases same : d.sameSite site with
  | false => simp [same]
  | true =>
    obtain ⟨e,member,before⟩ := List.any_eq_true.mp taken
    have found : ((table.lookup name).find? (·.sameSite site)).isSome :=
      List.find?_isSome.mpr ⟨e,member,Declaration.sameSite_trans before same⟩
    rw [holds.first] at found
    obtain ⟨kept,earlier⟩ := Option.isSome_iff_exists.mp found
    rw [earlier,Option.some_or]

theorem Holds.add (holds : table.Holds received) (name : String) (d : Declaration) :
    (table.add name d).Holds (received ++ [(name,d)]) := by
  refine ⟨?_,fun other => ?_,fun other site => ?_,fun other => ?_⟩
  · rw [names_add,holds.names,List.map_append,List.map_singleton,eraseDups_snoc]
    simp only [List.mem_eraseDups]
  · rcases lookup_add_cases table received name d other with
      ⟨kept,same⟩ | ⟨-,came,⟨-,kept⟩ | ⟨-,added⟩⟩
    · rw [kept,same]
      exact holds.order other
    · rw [kept,came]
      exact (holds.order other).trans (List.sublist_append_left ..)
    · rw [added,came]
      exact (holds.order other).append (.refl [d])
  · rcases lookup_add_cases table received name d other with
      ⟨kept,same⟩ | ⟨-,came,⟨taken,kept⟩ | ⟨-,added⟩⟩
    · rw [kept,same,holds.first]
    · rw [kept,came,holds.find?_taken taken,holds.first]
    · rw [added,came,List.find?_append,List.find?_append,holds.first]
  · rcases lookup_add_cases table received name d other with
      ⟨kept,-⟩ | ⟨-,-,⟨-,kept⟩ | ⟨free,added⟩⟩
    · rw [kept]
      exact holds.apart other
    · rw [kept]
      exact holds.apart other
    · rw [added,List.pairwise_append]
      refine ⟨holds.apart other,List.pairwise_singleton ..,fun e member last only => ?_⟩
      rw [List.mem_singleton.mp only]
      exact hasSite_eq_false.mp free e member

theorem holds_ofReceived (received : List (String × Declaration)) : (ofReceived received).Holds received := by
  induction received using List.reverseRecOn with
  | nil => exact .empty
  | append_singleton received p ih =>
    rw [ofReceived_snoc]
    exact ih.add p.1 p.2

/-! ### Names, counts and look-up -/

theorem mem_names_iff : name ∈ table.names ↔ table.lookup name ≠ [] := by
  rw [names_eq]
  constructor
  · intro listed
    obtain ⟨entry,member,rfl⟩ := List.mem_map.mp listed
    rw [lookup_of_entry member]
    exact table.filled entry member
  · intro some
    obtain ⟨d,member⟩ := List.exists_mem_of_ne_nil _ some
    obtain ⟨entry,listed,same,-⟩ := mem_all.mp (mem_all_of_mem_lookup member)
    exact List.mem_map.mpr ⟨entry,listed,same⟩

theorem count_eq : table.count = (table.names.map fun name => (table.lookup name).length).sum := by
  rw [← length_all,all_eq,List.length_flatMap]
  simp only [List.length_map]

/-- A declaration is found exactly when one of the name stands in a candidate scope. -/
theorem find?_isSome_iff {candidates : List (List String)} :
    (∃ d, table.find? name candidates = some d) ↔ ∃ d ∈ table.lookup name, d.scope ∈ candidates := by
  rw [← Option.isSome_iff_exists,find?,List.findSome?_isSome_iff]
  constructor
  · rintro ⟨scope,candidate,found⟩
    obtain ⟨d,member,same⟩ := List.find?_isSome.mp found
    exact ⟨d,member,beq_iff_eq.mp same ▸ candidate⟩
  · rintro ⟨d,member,candidate⟩
    exact ⟨d.scope,candidate,List.find?_isSome.mpr ⟨d,member,beq_self_eq_true _⟩⟩

/-- After any additions to any number of tables and any merges between them, each table lists the names that it received,
each once and in the order in which they were first seen, and these are the names with a declaration. Of each name it
has declarations in the order in which they came, no two of one file and scope, and for each file and scope the one that
came first. Its size is the number of names, and its count that of the declarations of all names. A look-up succeeds
exactly when some candidate is the scope of a declaration of the name, and gives the earliest declaration for the
earliest such candidate. -/
theorem tables_represent (operations : List Operation) (i : Nat) :
    let table := tablesAfter operations i
    let received := receivedAfter operations i
    table.names = (received.map (·.1)).eraseDups ∧ table.names.Nodup ∧
      (∀ name, name ∈ table.names ↔ table.lookup name ≠ []) ∧
      (∀ name, (table.lookup name).Sublist (under received name)) ∧
      (∀ name, (table.lookup name).Pairwise fun d e => ¬ (d.file = e.file ∧ d.scope = e.scope)) ∧
      (∀ name file scope, (table.lookup name).find? (fun d => d.file = file ∧ d.scope = scope) =
        (under received name).find? fun d => d.file = file ∧ d.scope = scope) ∧
      table.size = table.names.length ∧
      table.count = (table.names.map fun name => (table.lookup name).length).sum ∧
      ∀ name candidates,
        ((∃ d, table.find? name candidates = some d) ↔ ∃ d ∈ table.lookup name, d.scope ∈ candidates) ∧
          ∀ d, table.find? name candidates = some d ↔ table.Earliest name candidates d := by
  intro table received
  have made : table = ofReceived received := tablesAfter_eq operations i
  have holds : table.Holds received := made ▸ holds_ofReceived received
  refine ⟨holds.names,table.distinct,fun name => mem_names_iff,holds.order,fun name => ?_,fun name file scope => ?_,
    rfl,count_eq,fun name candidates => ⟨find?_isSome_iff,fun d => find?_eq_some_iff⟩⟩
  · refine (holds.apart name).imp fun {d e} different same => ?_
    rw [Declaration.sameSite_iff.mpr same] at different
    cases different
  · have first := holds.first name { kind := .space,name,file,scope }
    simpa [Declaration.sameSite,beq_eq_decide] using first

end Depends.TypeTable
