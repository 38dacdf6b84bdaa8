import Depends.Proofs.Declaration.Merging
import Depends.Proofs.Repository.Absorbing

/-!
Reading a file into a repository that others were read into before. Step by step it finds what the file's own
repository finds, and appends it to what was there (`Continues`): the ends of scopes are filled in for
declarations of the file only, and the declarations, names and aliases of the other files stay in front of
those of the file. At the end of the file the repository has what taking the file's own repository over would
have given it (`Continues.merged`).
-/
namespace Depends

section Upsert

variable {β : Type} {key : String} {change : Option β → β} {pairs more : List (String × β)}

theorem upsert_append (absent : key ∉ pairs.map (·.1)) : upsert key change (pairs ++ more) = pairs ++ upsert key change more := by
  induction pairs with
  | nil => rfl
  | cons pair pairs ih =>
    rw [List.map_cons,List.mem_cons,not_or] at absent
    simp [upsert,Ne.symm absent.1,ih absent.2]

theorem upsert_fresh (absent : key ∉ pairs.map (·.1)) : upsert key change pairs = pairs ++ [(key,change none)] := by
  have last : upsert key change (pairs ++ []) = pairs ++ upsert key change [] := upsert_append absent
  rwa [List.append_nil] at last

end Upsert

namespace Repository

variable {base own r q : Repository} {path : String} {paths : List String}

/-! ### Closing scopes -/

/-- Closing the innermost scope takes it off and fills in the end of at most one declaration. -/
theorem popScope_cases {line : Int} {closed : Frame} (popped : r.popScope line = .ok (closed,q)) :
    ∃ stack, q = { r with stack } ∨ ∃ serial, q = { r with stack }.close serial line r.scopeCount := by
  unfold popScope at popped
  split at popped
  · cases popped
  · dsimp only at popped
    split at popped
    · cases popped
      exact ⟨_,.inl rfl⟩
    · cases popped
      exact ⟨_,.inr ⟨_,rfl⟩⟩

/-- What closing scopes keeps. -/
structure Stable (property : Repository → Prop) : Prop where
  scopes : ∀ r stack, property r → property { r with stack }
  note : ∀ r notice, property r → property (r.note notice)
  close : ∀ r serial line scopes, property r → property (r.close serial line scopes)

variable {property : Repository → Prop}

theorem Stable.popScope (stable : Stable property) (holds : property r) {line : Int} {closed : Frame}
    (popped : r.popScope line = .ok (closed,q)) : property q := by
  obtain ⟨stack,rfl | ⟨serial,rfl⟩⟩ := popScope_cases popped
  · exact stable.scopes r stack holds
  · exact stable.close _ serial line _ (stable.scopes r stack holds)

theorem Stable.leave (stable : Stable property) (holds : property r) (semi : Semi) : property (r.leave semi) := by
  unfold Repository.leave Action.closeScopeOn
  split
  · exact stable.note r _ holds
  · rename_i popped
    exact stable.popScope holds popped

theorem Stable.closeScopes (stable : Stable property) (line : Int) (count : Nat) :
    ∀ r : Repository, property r → property (r.closeScopes line count) := by
  induction count with
  | zero => exact fun r holds => holds
  | succ count ih =>
    intro r holds
    unfold Repository.closeScopes
    extract_lets noted
    have still : property noted := by
      unfold noted
      split
      · exact stable.note r _ holds
      · exact holds
    split
    · exact still
    · rename_i popped
      exact ih _ (stable.popScope still popped)

theorem Stable.endFile (stable : Stable property) (holds : property r) (line : Int) : property (r.endFile line) :=
  stable.scopes _ _ (stable.closeScopes line _ r holds)

/-! ### What a repository has -/

/-- Everything that a repository has is of given files, and its declarations have serials below the next
one. -/
structure Within (paths : List String) (r : Repository) : Prop where
  files : ∀ d ∈ r.locations, d.file ∈ paths
  numbered : ∀ d ∈ r.locations, d.serial < r.nextSerial
  listed : ∀ p ∈ r.types.all, p.2.serial < r.nextSerial
  aliases : ∀ file ∈ r.aliases.map (·.1), file ∈ paths

theorem Within.stable (paths : List String) : Stable (Within paths) := by
  refine ⟨fun r stack within => ⟨within.files,within.numbered,within.listed,within.aliases⟩,
    fun r notice within => ⟨within.files,within.numbered,within.listed,within.aliases⟩,
    fun r serial line scopes within => ⟨?_,?_,?_,within.aliases⟩⟩
  · intro d member
    obtain ⟨old,listed,rfl⟩ := List.mem_map.mp member
    have here := within.files old listed
    split <;> exact here
  · intro d member
    obtain ⟨old,listed,rfl⟩ := List.mem_map.mp member
    have below := within.numbered old listed
    split <;> exact below
  · intro p member
    obtain ⟨old,listed,changed⟩ := TypeTable.mem_all_map.mp member
    have below := within.listed _ listed
    rw [← changed]
    split <;> exact below

theorem Within.announce (within : r.Within paths) {d : Declaration} (here : d.file ∈ paths) :
    (r.announce d).Within paths := by
  refine ⟨?_,?_,?_,within.aliases⟩
  · intro e member
    rcases List.mem_append.mp member with earlier | last
    · exact within.files e earlier
    · rw [List.mem_singleton.mp last]
      exact here
  · intro e member
    rcases List.mem_append.mp member with earlier | last
    · exact Nat.lt_succ_of_lt (within.numbered e earlier)
    · rw [List.mem_singleton.mp last]
      exact Nat.lt_succ_self _
  · exact fun p member => Nat.lt_succ_of_lt (within.listed p member)

theorem Within.enlist (within : r.Within paths) {d : Declaration} (here : d.file ∈ paths) :
    (r.enlist d).Within paths := by
  obtain ⟨files,numbered,-,aliases⟩ := within.announce here
  refine ⟨files,numbered,fun p member => ?_,aliases⟩
  rcases TypeTable.mem_all_add member with earlier | rfl
  · exact Nat.lt_succ_of_lt (within.listed p earlier)
  · exact Nat.lt_succ_self _

theorem Within.declare (within : r.Within paths) (role : Role) {semi : Semi} (here : semi.path ∈ paths) :
    (role.declare semi r).Within paths := by
  have entered : ∀ {q : Repository}, q.Within paths → ∀ kind first more, (q.enter semi kind first more).Within paths :=
    fun inside _ _ _ => ⟨inside.files,inside.numbered,inside.listed,inside.aliases⟩
  cases role with
  | binds name first more =>
    refine ⟨within.files,within.numbered,within.listed,fun file member => ?_⟩
    simp only [Role.declare,recordAlias,upsert_keys] at member
    split at member
    · exact within.aliases file member
    · rcases List.mem_append.mp member with earlier | last
      · exact within.aliases file earlier
      · rw [List.mem_singleton.mp last]
        exact here
  | opens kind first more =>
    simp only [Role.declare]
    split
    · exact entered within _ _ _
    · exact entered (within.announce here) _ _ _
  | declares kind name => exact entered (within.enlist here) _ _ _
  | delegates name => exact within.enlist here
  | closes => exact (Within.stable paths).leave within semi
  | plain => exact within

theorem Within.declared (options : RuleOptions) {units : List Semi} (placed : ∀ unit ∈ units, unit.path ∈ paths) :
    ∀ {r : Repository}, r.Within paths → (r.declared options units).Within paths := by
  induction units with
  | nil => exact fun within => within
  | cons unit units ih =>
    intro r within
    rw [List.forall_mem_cons] at placed
    exact ih placed.2 (within.declare _ placed.1)

/-! ### A file after others -/

/-- The aliases of one file alone: none, or some, each of them once. -/
def OnlyOf (path : String) (aliases : List (String × AliasTable)) : Prop :=
  aliases = [] ∨ ∃ first more, aliases = [(path,first :: more)] ∧ ((first :: more).map (·.1)).Nodup

/-- A repository `r` into which a file is read after others: it is what the others left, `base`, followed by
what the file's own repository has found so far. -/
structure Continues (path : String) (base own r : Repository) : Prop extends own.SameScopes r where
  file : own.file = path ∧ r.file = path
  nextSerial : r.nextSerial = own.nextSerial
  later : base.nextSerial ≤ own.nextSerial
  fresh : ∀ d ∈ own.locations, base.nextSerial ≤ d.serial
  usings : own.usings = []
  onlyOf : OnlyOf path own.aliases
  locations : r.locations = base.locations ++ own.locations
  types : r.types = base.types.merge own.types
  aliases : r.aliases = base.aliases ++ own.aliases

theorem OnlyOf.upsert {aliases : List (String × AliasTable)} (only : OnlyOf path aliases) (name : String)
    (target : List String) :
    OnlyOf path (upsert path (fun old => Depends.upsert name (fun _ => target) (old.getD [])) aliases) := by
  rcases only with rfl | ⟨first,more,rfl,distinct⟩
  · exact .inr ⟨(name,target),[],rfl,List.pairwise_singleton _ _⟩
  · have kept : ((Depends.upsert name (fun _ => target) (first :: more)).map (·.1)).Nodup := upsert_keys_nodup distinct
    simp only [Depends.upsert,beq_self_eq_true,↓reduceIte,Option.getD_some]
    split
    · rename_i here
      rw [Depends.upsert,if_pos here] at kept
      exact .inr ⟨_,_,rfl,kept⟩
    · rename_i elsewhere
      rw [Depends.upsert,if_neg elsewhere] at kept
      exact .inr ⟨_,_,rfl,kept⟩

theorem Continues.begin (path : String) (r : Repository) :
    Continues path r (({ nextSerial := r.nextSerial } : Repository).beginFile path) (r.beginFile path) := by
  refine ⟨⟨rfl,rfl⟩,⟨rfl,rfl⟩,rfl,Nat.le_refl _,?_,rfl,.inl rfl,?_,rfl,?_⟩
  · exact fun d member => absurd member List.not_mem_nil
  · exact (List.append_nil _).symm
  · exact (List.append_nil _).symm

theorem Continues.announce (continues : Continues path base own r) {d e : Declaration} (same : e = d) :
    Continues path base (own.announce d) (r.announce e) := by
  subst same
  have later := continues.later
  refine ⟨⟨continues.stack,continues.scopeCount⟩,continues.file,?_,?_,?_,continues.usings,continues.onlyOf,?_,continues.types,continues.aliases⟩
  · exact congrArg (· + 1) continues.nextSerial
  · exact Nat.le_succ_of_le later
  · intro d member
    rcases List.mem_append.mp member with earlier | last
    · exact continues.fresh d earlier
    · rw [List.mem_singleton.mp last]
      exact later
  · simp only [Repository.announce,continues.locations,continues.nextSerial,List.append_assoc]

theorem Continues.enlist (continues : Continues path base own r) {d e : Declaration} (same : e = d) :
    Continues path base (own.enlist d) (r.enlist e) := by
  obtain ⟨scopes,file,next,later,fresh,usings,onlyOf,locations,-,aliases⟩ := continues.announce same
  subst same
  refine ⟨⟨scopes.stack,scopes.scopeCount⟩,file,next,later,fresh,usings,onlyOf,locations,?_,aliases⟩
  simp only [Repository.enlist,continues.types,continues.nextSerial]
  exact (TypeTable.merge_add _ _ _ _).symm

theorem Continues.enter (continues : Continues path base own r) (semi : Semi) (kind : DeclKind) (first : String)
    (more : List String) : Continues path base (own.enter semi kind first more) (r.enter semi kind first more) := by
  obtain ⟨stack,count⟩ := continues.toSameScopes.enter semi kind first more
  exact ⟨⟨stack,count⟩,continues.file,continues.nextSerial,continues.later,continues.fresh,
    continues.usings,continues.onlyOf,continues.locations,continues.types,continues.aliases⟩

theorem Continues.recordAlias (continues : Continues path base own r) (new : path ∉ base.aliases.map (·.1))
    (name : String) (target : List String) :
    Continues path base (own.recordAlias path name target) (r.recordAlias path name target) := by
  refine ⟨⟨continues.stack,continues.scopeCount⟩,continues.file,continues.nextSerial,continues.later,continues.fresh,
    continues.usings,continues.onlyOf.upsert name target,continues.locations,continues.types,?_⟩
  simp only [Repository.recordAlias,continues.aliases]
  exact upsert_append new

/-- The declaration that belongs to a scope of the file is looked for among those of the file. -/
theorem Continues.openFor? (continues : Continues path base own r) (others : ∀ d ∈ base.locations, d.file ≠ path)
    (frame : Frame) : r.openFor? frame = own.openFor? frame := by
  have none : base.locations.reverse.find? (fun d =>
      d.endLine == 0 && d.file == path && d.kind == frame.kind && d.name == frame.name) = none := by
    rw [List.find?_eq_none]
    intro d member held
    simp only [Bool.and_eq_true,beq_iff_eq] at held
    exact others d (List.mem_reverse.mp member) held.1.1.2
  simp only [Repository.openFor?,continues.file.1,continues.file.2,continues.locations,List.reverse_append,
    List.find?_append,none,Option.or_none]

/-- Filling in an end of the file leaves the other files alone. -/
theorem Continues.close (continues : Continues path base own r) (within : base.Within paths) {serial : Nat}
    (own' : base.nextSerial ≤ serial) (line scopes : Int) (stack : Stack Frame) :
    Continues path base ({ own with stack }.close serial line scopes) ({ r with stack }.close serial line scopes) := by
  have site : ∀ d : Declaration, (if d.serial = serial then d.closeAt line scopes else d).sameSite d = true := by
    intro d
    split <;> exact Declaration.sameSite_refl d
  -- The serial is one of the file, so no declaration of the others has it.
  have fixed : ∀ d : Declaration, d.serial < base.nextSerial →
      (if d.serial = serial then d.closeAt line scopes else d) = d := by
    intro d below
    rw [if_neg (by omega)]
  refine ⟨⟨rfl,continues.scopeCount⟩,continues.file,continues.nextSerial,continues.later,?_,
    continues.usings,continues.onlyOf,?_,?_,continues.aliases⟩
  · intro d member
    obtain ⟨old,listed,rfl⟩ := List.mem_map.mp member
    have later := continues.fresh old listed
    split <;> exact later
  · simp only [Repository.close,continues.locations,List.map_append]
    congr 1
    exact (List.map_congr_left fun d member => fixed d (within.numbered d member)).trans (List.map_id _)
  · simp only [Repository.close,continues.types]
    rw [TypeTable.map_merge site,TypeTable.map_eq_self fun p member => fixed p.2 (within.listed p member)]

theorem Continues.popScope (continues : Continues path base own r) (within : base.Within paths) (new : path ∉ paths)
    (line : Int) :
    (∃ failure, own.popScope line = .error failure ∧ r.popScope line = .error failure) ∨
      ∃ closed own' r', own.popScope line = .ok (closed,own') ∧ r.popScope line = .ok (closed,r') ∧
        Continues path base own' r' := by
  have others : ∀ d ∈ base.locations, d.file ≠ path := fun d member same => new (same ▸ within.files d member)
  have count : (r.scopeCount : Int) = own.scopeCount := congrArg Nat.cast continues.scopeCount
  unfold Repository.popScope
  rw [continues.stack]
  simp only [count]
  cases own.stack.pop with
  | error failure => exact .inl ⟨failure,rfl,rfl⟩
  | ok popped =>
    obtain ⟨frame,stack⟩ := popped
    dsimp only
    rw [continues.openFor? others]
    cases found : own.openFor? { frame with endLine := line, endScopes := own.scopeCount } with
    | none =>
      refine .inr ⟨_,_,_,rfl,rfl,?_⟩
      exact ⟨⟨rfl,continues.scopeCount⟩,continues.file,continues.nextSerial,continues.later,continues.fresh,
        continues.usings,continues.onlyOf,continues.locations,continues.types,continues.aliases⟩
    | some d =>
      have member := List.mem_reverse.mp (List.mem_of_find?_eq_some found)
      exact .inr ⟨_,_,_,rfl,rfl,continues.close within (continues.fresh d member) line _ _⟩

theorem Continues.note (continues : Continues path base own r) (first second : List Notice) :
    Continues path base { own with journal := first } { r with journal := second } :=
  ⟨⟨continues.stack,continues.scopeCount⟩,continues.file,continues.nextSerial,continues.later,continues.fresh,
    continues.usings,continues.onlyOf,continues.locations,continues.types,continues.aliases⟩

theorem Continues.leave (continues : Continues path base own r) (within : base.Within paths) (new : path ∉ paths)
    (semi : Semi) : Continues path base (own.leave semi) (r.leave semi) := by
  unfold Repository.leave Action.closeScopeOn
  rcases continues.popScope within new semi.line with ⟨failure,left,right⟩ | ⟨closed,own',r',left,right,after⟩
  · rw [left,right]
    exact continues.note _ _
  · rw [left,right]
    exact after

/-- One semi-expression of the file. -/
theorem Continues.declare (continues : Continues path base own r) (within : base.Within paths) (new : path ∉ paths)
    (role : Role) {semi : Semi} (placed : semi.path = path) :
    Continues path base (role.declare semi own) (role.declare semi r) := by
  have scope := continues.toSameScopes.scopePath
  have count := continues.scopeCount
  cases role with
  | binds name first more =>
    simp only [Role.declare,placed]
    exact continues.recordAlias (fun known => new (within.aliases path known)) name (first :: more)
  | opens kind first more =>
    simp only [Role.declare]
    split
    · exact continues.enter semi _ first more
    · exact (continues.announce (by simp only [beginning,scope,count])).enter semi kind first more
  | declares kind name =>
    exact (continues.enlist (by simp only [beginning,scope,count])).enter semi kind name []
  | delegates name => exact continues.enlist (by simp only [bodiless,scope,count])
  | closes => exact continues.leave within new semi
  | plain => exact continues

theorem Continues.declared (options : RuleOptions) (within : base.Within paths) (new : path ∉ paths)
    {units : List Semi} (placed : ∀ unit ∈ units, unit.path = path) :
    ∀ {own r : Repository}, Continues path base own r →
      Continues path base (own.declared options units) (r.declared options units) := by
  induction units with
  | nil => exact fun continues => continues
  | cons unit units ih =>
    intro own r continues
    rw [List.forall_mem_cons] at placed
    exact ih placed.2 (continues.declare within new _ placed.1)

theorem Continues.closeScopes (within : base.Within paths) (new : path ∉ paths) (line : Int) (count : Nat) :
    ∀ {own r : Repository}, Continues path base own r →
      Continues path base (own.closeScopes line count) (r.closeScopes line count) := by
  induction count with
  | zero => exact fun continues => continues
  | succ count ih =>
    intro own r continues
    unfold Repository.closeScopes
    rw [continues.stack]
    extract_lets noted noted'
    have still : Continues path base noted noted' := by
      unfold noted noted'
      split
      · exact continues.note _ _
      · exact continues
    rcases still.popScope within new line with ⟨failure,left,right⟩ | ⟨closed,own',r',left,right,after⟩
    · rw [left,right]
      exact still
    · rw [left,right]
      exact ih after

/-- The end of the file. -/
theorem Continues.endFile (continues : Continues path base own r) (within : base.Within paths) (new : path ∉ paths)
    (line : Int) : Continues path base (own.endFile line) (r.endFile line) := by
  have closed := Continues.closeScopes within new line r.stack.items.length continues
  unfold Repository.endFile
  rw [← continues.stack]
  exact ⟨⟨rfl,closed.scopeCount⟩,closed.file,closed.nextSerial,closed.later,closed.fresh,closed.usings,
    closed.onlyOf,closed.locations,closed.types,closed.aliases⟩

/-! ### Taking the file over -/

theorem recordAliases_append {aliases : List (String × AliasTable)} (new : path ∉ aliases.map (·.1))
    (table : AliasTable) : ∀ {before : AliasTable}, ((before ++ table).map (·.1)).Nodup → ∀ r : Repository,
      r.aliases = aliases ++ [(path,before)] →
        (r.recordAliases path table).aliases = aliases ++ [(path,before ++ table)] := by
  induction table with
  | nil => intro before _ r same; simpa [recordAliases] using same
  | cons a table ih =>
    intro before distinct r same
    have absent : a.1 ∉ before.map (·.1) := by
      rw [List.map_append,List.map_cons] at distinct
      exact fun member => (List.nodup_append.mp distinct).2.2 _ member a.1 (List.mem_cons_self ..) rfl
    have first : (r.recordAlias path a.1 a.2).aliases = aliases ++ [(path,before ++ [a])] := by
      simp only [Repository.recordAlias,same,upsert_append new]
      simp [upsert,upsert_fresh absent]
    have joined : before ++ a :: table = before ++ [a] ++ table := List.append_cons ..
    rw [joined] at distinct ⊢
    exact ih distinct (r.recordAlias path a.1 a.2) first

theorem recordAliases_fresh (new : path ∉ r.aliases.map (·.1)) {first : String × List String} {more : AliasTable}
    (distinct : ((first :: more).map (·.1)).Nodup) :
    (r.recordAliases path (first :: more)).aliases = r.aliases ++ [(path,first :: more)] := by
  have started : (r.recordAlias path first.1 first.2).aliases = r.aliases ++ [(path,[first])] := upsert_fresh new
  exact recordAliases_append new more distinct _ started

/-- Taking a file's own repository over gives the declarations, the type table and the aliases that reading the
file on gives. -/
theorem Continues.merged (continues : Continues path base own r) (within : base.Within paths) (new : path ∉ paths)
    {m : Repository} (types : m.types = base.types) (locations : m.locations = base.locations)
    (aliases : m.aliases = base.aliases) :
    (m.merge own).types = r.types ∧ (m.merge own).locations = r.locations ∧ (m.merge own).aliases = r.aliases := by
  have absent : path ∉ m.aliases.map (·.1) := by
    rw [aliases]
    exact fun known => new (within.aliases path known)
  have tables : own.OwnTables path := by
    refine ⟨continues.usings,continues.onlyOf.imp_right ?_⟩
    rintro ⟨first,more,only,distinct⟩
    exact ⟨_,only,distinct⟩
  obtain ⟨taken,appended,-⟩ := absorb_tables m tables
  refine ⟨?_,?_,?_⟩
  · rw [continues.types,← types]
    exact taken
  · rw [continues.locations,← locations]
    exact appended
  · rw [continues.aliases,← aliases,merge_eq m tables]
    rcases continues.onlyOf with empty | ⟨first,more,only,distinct⟩
    · simp [aliasesOf,empty,recordAliases]
    · rw [only,show own.aliasesOf path = first :: more by simp [aliasesOf,only]]
      refine recordAliases_fresh ?_ distinct
      exact absent

end Repository
end Depends
