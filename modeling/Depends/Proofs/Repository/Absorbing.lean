import Depends.Proofs.Graph.Linking
import Depends.Proofs.Repository.Refining

/-!
Taking over the declarations of a file. What a file declares does not depend on the serials that its
declarations get (`Alike`), so a repository that took a file over knows everything a second reading of the
file finds (`absorb_knows`), and taking that over too adds recorded declarations only
(`absorb_of_knows`).
-/
namespace Depends.Repository

variable {r q o : Repository} {path : String}

/-- What one file declares, read into a repository of its own that counts serials from a given one. -/
def own (options : RuleOptions) (path : String) (units : List Semi) (serial : Nat) : Repository :=
  ((({ nextSerial := serial } : Repository).beginFile path).declared options units).endFile
    ((units.getLast?.map (·.line)).getD 0)

theorem own_allClosed (options : RuleOptions) {units : List Semi} (serial : Nat)
    (placed : ∀ unit ∈ units, unit.Placed path) : (own options path units serial).AllClosed :=
  declared_allClosed options path { nextSerial := serial } rfl placed

/-! ### Tables of one file -/

/-- No imports, and aliases of one file only, each once. -/
structure OwnTables (path : String) (r : Repository) : Prop where
  usings : r.usings = []
  aliases : r.aliases = [] ∨ ∃ table, r.aliases = [(path,table)] ∧ (table.map (·.1)).Nodup

theorem OwnTables.congr (tables : r.OwnTables path) (usings : q.usings = r.usings) (aliases : q.aliases = r.aliases) :
    q.OwnTables path :=
  ⟨usings.trans tables.usings,aliases ▸ tables.aliases⟩

theorem OwnTables.distinct (tables : r.OwnTables path) : ((r.aliasesOf path).map (·.1)).Nodup := by
  rcases tables.aliases with empty | ⟨table,only,distinct⟩
  · simp [aliasesOf,empty]
  · simpa [aliasesOf,only] using distinct

theorem OwnTables.recordAlias (tables : r.OwnTables path) (name : String) (target : List String) :
    (r.recordAlias path name target).OwnTables path := by
  refine ⟨tables.usings,.inr ?_⟩
  rcases tables.aliases with empty | ⟨table,only,distinct⟩
  · exact ⟨[(name,target)],by simp [Repository.recordAlias,empty,upsert],by simp⟩
  · exact ⟨upsert name (fun _ => target) table,by simp [Repository.recordAlias,only,upsert],
      upsert_keys_nodup distinct⟩

theorem OwnTables.declare (tables : r.OwnTables path) (role : Role) {semi : Semi} (placed : semi.path = path) :
    (role.declare semi r).OwnTables path := by
  cases role with
  | binds name first more => exact placed ▸ (placed ▸ tables).recordAlias name (first :: more)
  | opens kind first more =>
    by_cases control : kind = .control
    · exact tables.congr (by simp [Role.declare,control,enter,pushScope]) (by simp [Role.declare,control,enter,pushScope])
    · exact tables.congr (by simp [Role.declare,control,enter,pushScope,announce])
        (by simp [Role.declare,control,enter,pushScope,announce])
  | declares kind name => exact tables.congr rfl rfl
  | delegates name => exact tables.congr rfl rfl
  | closes =>
    have refined := Refined.leave r semi
    exact tables.congr refined.usings refined.aliases
  | plain => exact tables

theorem own_tables (options : RuleOptions) {units : List Semi} (serial : Nat)
    (placed : ∀ unit ∈ units, unit.Placed path) : (own options path units serial).OwnTables path := by
  have run : ∀ (more : List Semi) (q : Repository), q.OwnTables path → (∀ unit ∈ more, unit.Placed path) →
      (q.declared options more).OwnTables path := by
    intro more
    induction more with
    | nil => exact fun q tables _ => tables
    | cons unit more ih =>
      intro q tables inside
      exact ih _ (tables.declare _ (inside unit (List.mem_cons_self ..)).path)
        fun other member => inside other (List.mem_cons_of_mem _ member)
  have declared := run units (({ nextSerial := serial } : Repository).beginFile path) ⟨rfl,.inl rfl⟩ placed
  have ended := Refined.endFile ((({ nextSerial := serial } : Repository).beginFile path).declared options units)
    ((units.getLast?.map (·.line)).getD 0)
  exact declared.congr ended.usings ended.aliases

/-! ### Two readings of one file -/

/-- Two readings of a file: the same scopes and aliases, and a declaration of the first one at each site of
the second one. -/
structure Alike (r q : Repository) : Prop extends r.SameScopes q where
  aliases : q.aliases = r.aliases
  covers : r.types.Covers q.types

theorem Alike.refined (alike : r.Alike q) {r' q' : Repository} (left : r.Refined r') (right : q.Refined q') :
    q'.aliases = r'.aliases ∧ r'.types.Covers q'.types := by
  obtain ⟨change,site,-,-,types⟩ := left.declarations
  obtain ⟨change',site',-,-,types'⟩ := right.declarations
  constructor
  · rw [left.aliases,right.aliases,alike.aliases]
  · rw [types,types']
    refine alike.covers.map site fun d => ?_
    have same := Declaration.sameSite_iff.mp (site' d)
    exact Declaration.sameSite_iff.mpr ⟨same.1.symm,same.2.symm⟩

theorem Alike.enlist (alike : r.Alike q) {d e : Declaration} (name : d.name = e.name) (site : d.sameSite e = true) :
    (r.enlist d).Alike (q.enlist e) := by
  refine ⟨⟨alike.stack,alike.scopeCount⟩,alike.aliases,?_⟩
  simp only [Repository.enlist,name]
  exact alike.covers.add site

theorem Alike.declare (alike : r.Alike q) (role : Role) (semi : Semi) :
    (role.declare semi r).Alike (role.declare semi q) := by
  cases role with
  | binds name first more =>
    refine ⟨⟨alike.stack,alike.scopeCount⟩,?_,alike.covers⟩
    simp only [Role.declare,recordAlias,alike.aliases]
  | opens kind first more =>
    by_cases control : kind = .control
    · subst control
      exact ⟨alike.toSameScopes.enter semi _ first more,alike.aliases,alike.covers⟩
    · simp only [Role.declare,control,↓reduceIte]
      refine ⟨SameScopes.enter ?_ semi kind first more,alike.aliases,alike.covers⟩
      exact ⟨alike.stack,alike.scopeCount⟩
  | declares kind name =>
    have enlisted := alike.enlist (d := r.beginning semi kind name) (e := q.beginning semi kind name) rfl
      (Declaration.sameSite_iff.mpr ⟨rfl,alike.scopePath.symm⟩)
    exact ⟨enlisted.toSameScopes.enter semi kind name [],enlisted.aliases,enlisted.covers⟩
  | delegates name =>
    exact alike.enlist (d := r.bodiless semi name) (e := q.bodiless semi name) rfl
      (Declaration.sameSite_iff.mpr ⟨rfl,alike.scopePath.symm⟩)
  | closes =>
    obtain ⟨aliases,covers⟩ := alike.refined (.leave r semi) (.leave q semi)
    exact ⟨alike.toSameScopes.leave semi,aliases,covers⟩
  | plain => exact alike

theorem own_alike (options : RuleOptions) (path : String) (units : List Semi) (n m : Nat) :
    (own options path units m).aliases = (own options path units n).aliases ∧
      (own options path units n).types.Covers (own options path units m).types := by
  have run : ∀ (more : List Semi) (r q : Repository), r.Alike q →
      (r.declared options more).Alike (q.declared options more) := by
    intro more
    induction more with
    | nil => exact fun r q alike => alike
    | cons unit more ih => exact fun r q alike => ih _ _ (alike.declare _ unit)
  have declared := run units (({ nextSerial := n } : Repository).beginFile path)
    (({ nextSerial := m } : Repository).beginFile path)
    ⟨⟨rfl,rfl⟩,rfl,by simp [TypeTable.Covers,beginFile]⟩
  exact declared.refined (.endFile _ _) (.endFile _ _)

/-! ### Taking over -/

/-- Takes over what a file declares, and the file as a node. -/
def absorb (r o : Repository) (path : String) : Repository := ((r.merge o).ensureNode path).2

theorem merge_eq (r : Repository) (tables : o.OwnTables path) :
    r.merge o =
      ({ r with
          types := r.types.merge o.types
          locations := r.locations ++ o.locations
          nextSerial := max r.nextSerial o.nextSerial }).recordAliases path (o.aliasesOf path) := by
  rcases tables.aliases with empty | ⟨table,only,-⟩
  · simp [merge,tables.usings,empty,aliasesOf,recordAliases]
  · simp [merge,tables.usings,only,aliasesOf,recordAliases]

/-- Taking a file over, table by table. -/
theorem absorb_tables (r : Repository) (tables : o.OwnTables path) :
    (r.absorb o path).types = r.types.merge o.types ∧ (r.absorb o path).locations = r.locations ++ o.locations ∧
      (r.absorb o path).usings = r.usings ∧ (r.absorb o path).graph = (r.graph.addNode path).2 := by
  obtain ⟨aliases,merged⟩ := recordAliases_only
    { r with
      types := r.types.merge o.types
      locations := r.locations ++ o.locations
      nextSerial := max r.nextSerial o.nextSerial } path (o.aliasesOf path)
  simp [absorb,ensureNode,merge_eq r tables,merged]

theorem alias?_absorb_self (r : Repository) (tables : o.OwnTables path) :
    ∀ a ∈ o.aliasesOf path, (r.absorb o path).alias? path a.1 = some a.2 := by
  intro a member
  have bound : (r.merge o).alias? path a.1 = some a.2 := by
    rw [merge_eq r tables]
    exact alias?_recordAliases tables.distinct a member
  exact bound

theorem alias?_absorb_other (r : Repository) (tables : o.OwnTables path) {other : String} (different : other ≠ path)
    (name : String) : (r.absorb o path).alias? other name = r.alias? other name := by
  have kept : (r.merge o).alias? other name = r.alias? other name := by
    rw [merge_eq r tables,alias?_recordAliases_other different]
    rfl
  exact kept

theorem absorb_allClosed (closed : r.AllClosed) (tables : o.OwnTables path) (ended : o.AllClosed) :
    (r.absorb o path).AllClosed := by
  intro d member
  rw [(absorb_tables r tables).2.1] at member
  rcases List.mem_append.mp member with before | added
  · exact closed d before
  · exact ended d added

/-- A repository has everything that a file declares. -/
structure Knows (path : String) (r o : Repository) : Prop where
  sites : ∀ p ∈ o.types.all, r.types.hasSite p.1 p.2 = true
  bound : ∀ a ∈ o.aliasesOf path, r.alias? path a.1 = some a.2
  node : (r.graph.find? path).isSome

/-- A file that was taken over is known. -/
theorem absorb_knows (r : Repository) (tables : o.OwnTables path) : (r.absorb o path).Knows path o := by
  obtain ⟨types,-,-,graph⟩ := absorb_tables r tables
  refine ⟨?_,alias?_absorb_self r tables,?_⟩
  · rw [types]
    exact fun p member => TypeTable.hasSite_merge member
  · rw [graph,Graph.find?_addNode_self]
    rfl

/-- Taking over another file forgets nothing. -/
theorem Knows.absorb (knows : r.Knows path o) {other : Repository} {file : String} (tables : other.OwnTables file)
    (different : path ≠ file) : (r.absorb other file).Knows path o := by
  obtain ⟨types,-,-,graph⟩ := absorb_tables r tables
  refine ⟨?_,?_,?_⟩
  · rw [types]
    exact fun p member => TypeTable.hasSite_merge_mono (knows.sites p member)
  · intro a member
    rw [alias?_absorb_other r tables different]
    exact knows.bound a member
  · obtain ⟨i,found⟩ := Option.isSome_iff_exists.mp knows.node
    rw [graph,Graph.find?_addNode_mono found]
    rfl

theorem Knows.congr (knows : r.Knows path o) (types : q.types = r.types) (aliases : q.aliases = r.aliases)
    (node : (q.graph.find? path).isSome) : q.Knows path o := by
  refine ⟨types ▸ knows.sites,?_,node⟩
  intro a member
  simp only [alias?,aliasesOf,aliases]
  exact knows.bound a member

theorem Knows.alike (knows : r.Knows path o) {o' : Repository} (aliases : o'.aliases = o.aliases)
    (covers : o.types.Covers o'.types) : r.Knows path o' := by
  refine ⟨?_,?_,knows.node⟩
  · intro p member
    obtain ⟨d,listed,site⟩ := covers p member
    rw [← TypeTable.hasSite_congr site]
    exact knows.sites (p.1,d) listed
  · intro a member
    refine knows.bound a ?_
    rw [aliasesOf,aliases] at member
    exact member

/-- Taking over what is known adds recorded declarations only. -/
theorem absorb_of_knows (tables : o.OwnTables path) (knows : r.Knows path o) :
    r.absorb o path =
      { r with locations := r.locations ++ o.locations, nextSerial := max r.nextSerial o.nextSerial } := by
  obtain ⟨i,found⟩ := Option.isSome_iff_exists.mp knows.node
  have merged : r.merge o =
      { r with locations := r.locations ++ o.locations, nextSerial := max r.nextSerial o.nextSerial } := by
    rw [merge_eq r tables,TypeTable.merge_eq_self knows.sites]
    exact recordAliases_eq_self knows.bound
  simp [absorb,merged,ensureNode,Graph.addNode,found]

end Depends.Repository
