import Depends.Proofs.Analysis.Declaring
import Depends.Proofs.Analysis.References

/-!
The dependency pass does not disturb the type pass. When the type pass is over, every declaration has its end and the
file of every type in the table is a node (`Settled`), whatever the files contain and whether they can be read at all.
So closing scopes finds no declaration to fill in and linking finds every node: the dependency pass changes imports,
edges and the scopes of the current file, and nothing else (`references_disturb_nothing`).
-/
namespace Depends
namespace Repository

variable {r q : Repository} {path : String}

/-- The second repository is the first one up to imports, edges, the scopes of the current file, and the journal. -/
structure Undisturbed (r q : Repository) : Prop where
  locations : q.locations = r.locations
  types : q.types = r.types
  aliases : q.aliases = r.aliases
  nextSerial : q.nextSerial = r.nextSerial
  nodes : q.graph.nodes.map (·.path) = r.graph.nodes.map (·.path)

theorem Undisturbed.refl (r : Repository) : r.Undisturbed r := ⟨rfl,rfl,rfl,rfl,rfl⟩

theorem Undisturbed.trans {s : Repository} (first : r.Undisturbed q) (second : q.Undisturbed s) : r.Undisturbed s :=
  ⟨second.locations.trans first.locations,second.types.trans first.types,second.aliases.trans first.aliases,
    second.nextSerial.trans first.nextSerial,second.nodes.trans first.nodes⟩

/-- Every declaration has an end, and the file of every type is a node. -/
structure Settled (r : Repository) : Prop where
  closed : r.AllClosed
  housed : ∀ p ∈ r.types.all, (r.graph.find? p.2.file).isSome

theorem Settled.undisturbed (settled : r.Settled) (same : r.Undisturbed q) : q.Settled := by
  constructor
  · intro d member
    rw [same.locations] at member
    exact settled.closed d member
  · intro p member
    rw [same.types] at member
    rw [Graph.find?_congr same.nodes]
    exact settled.housed p member

/-! ### One file of the dependency pass -/

/-- What the references of semi-expressions mean is in the table. -/
theorem mem_all_of_referred (options : RuleOptions) (units : List Semi) {d : Declaration} :
    ∀ {r : Repository}, r.AllClosed → d ∈ referred options units r → ∃ name, (name,d) ∈ r.types.all := by
  induction units with
  | nil => exact fun _ member => absurd member List.not_mem_nil
  | cons unit units ih =>
    intro r closed member
    rw [referred,List.mem_append,List.mem_filterMap] at member
    rw [← types_advance closed options unit]
    rcases member with ⟨part,-,found⟩ | later
    · obtain ⟨_,name,-,earliest⟩ := resolve?_eq_some found
      exact ⟨name,earliest.mem_all⟩
    · exact ih (advance_allClosed closed options unit) later

theorem nextSerial_stable (next : Nat) : Stable fun r => r.nextSerial = next :=
  ⟨fun _ _ same => same,fun _ _ same => same,fun _ _ _ _ same => same⟩

theorem nextSerial_track (role : Role) (semi : Semi) (r : Repository) :
    (role.track semi r).nextSerial = r.nextSerial := by
  cases role with
  | closes => exact (nextSerial_stable r.nextSerial).leave rfl semi
  | _ => rfl

theorem nextSerial_references (options : RuleOptions) (unit : Semi) (r : Repository) :
    (applyAll options unit [.tracking,.referring] r).2.nextSerial = r.nextSerial := by
  obtain ⟨journal,added⟩ := addReferences_eq (fun part member => lookedUp_path member) (r.advance options unit)
  obtain ⟨usings,advanced⟩ := advance_only options unit r
  have applied := (applyAll_references options unit r).trans (congrArg _ added)
  rw [applied,advanced]
  exact nextSerial_track (roleOf options unit.tokens) unit r

theorem nextSerial_readUnits (options : RuleOptions) (path : String) (units : List Semi) (r : Repository) :
    (readUnits options [.tracking,.referring] path units r).2.nextSerial = r.nextSerial := by
  have run : ∀ (units : List Semi) (line : Int) (q : Repository),
      (offerAll options [.tracking,.referring] units line q).2.2.nextSerial = q.nextSerial := by
    intro units
    induction units with
    | nil => intro line q; rfl
    | cons unit units ih =>
      intro line q
      have step := nextSerial_references options unit q
      rw [offerAll]
      rw [applyAll_references] at step ⊢
      exact (ih unit.line _).trans step
  exact (nextSerial_stable r.nextSerial).endFile (run units 0 (r.beginFile path)) _

/-- The dependency pass reads one file of a settled repository. -/
theorem Settled.readUnits (settled : r.Settled) (node : (r.graph.find? path).isSome) (options : RuleOptions)
    {units : List Semi} (placed : ∀ unit ∈ units, unit.path = path) :
    ∃ q, readUnits options [.tracking,.referring] path units r = (none,q) ∧ r.Undisturbed q := by
  obtain ⟨q,read,after⟩ := readUnits_referred options placed settled.closed
  refine ⟨q,read,after.locations,after.types,after.aliases,?_,?_⟩
  · have same := nextSerial_readUnits options path units r
    rwa [read] at same
  · rw [after.graph]
    refine Graph.paths_connectAll fun pair member => ?_
    obtain ⟨target,listed,rfl⟩ := List.mem_map.mp member
    refine ⟨node,?_⟩
    -- The file that a reference leads to declares a type of the table, so it has a node.
    obtain ⟨inside,-⟩ := List.mem_filter.mp listed
    obtain ⟨d,meant,rfl⟩ := List.mem_map.mp inside
    have started : (r.beginFile path).AllClosed := settled.closed
    obtain ⟨name,entered⟩ := mem_all_of_referred options units started meant
    exact settled.housed (name,d) entered

end Repository

/-! ### Reading files, readable or not -/

/-- The file is not given, or its semi-expressions are, each at the path. -/
theorem Files.semisUnless_placed (files : Files) (cancelled : Bool) (lex : Lexicon) (path : String) {units : List Semi}
    (given : files.semisUnless cancelled lex path = .ok units) : ∀ unit ∈ units, unit.Placed path := by
  unfold Files.semisUnless at given
  cases read : files.semis lex path with
  | error failure => simp [read] at given
  | ok all =>
    have same : files.unitsAt lex path = all := by simp [Files.unitsAt,read]
    rw [read] at given
    dsimp only at given
    split at given
    · cases given
    · cases given
      exact same ▸ files.unitsAt_placed lex path

/-- In whichever pass, reading a file goes through semi-expressions of the file, and through none when it is not
given. -/
theorem readFile_reading (files : Files) (lex : Lexicon) (cancelled : Bool) (options : RuleOptions)
    (lists : List RuleList) (path : String) (r : Repository) :
    ∃ failure units, (∀ unit ∈ units, unit.Placed path) ∧
      readFile (.reading lex cancelled) options lists path r files =
        (failure,(readUnits options lists path units r).2,files) := by
  unfold readFile
  simp only [SemiSource.reading]
  cases given : files.semisUnless cancelled lex path with
  | error fault => exact ⟨_,[],fun unit member => absurd member List.not_mem_nil,rfl⟩
  | ok units =>
    by_cases stopped : (cancelled && !units.isEmpty) = true
    · exact ⟨some .cancelled,[],fun unit member => absurd member List.not_mem_nil,by simp only [stopped]; rfl⟩
    · exact ⟨_,units,files.semisUnless_placed cancelled lex path given,by simp only [stopped]; rfl⟩

theorem readReferences_undisturbed (files : Files) (lex : Lexicon) (cancelled : Bool) (options : RuleOptions)
    {paths : List String} : ∀ {r : Repository}, r.Settled → (∀ path ∈ paths, (r.graph.find? path).isSome) →
      (∃ q skipped, readReferences (.reading lex cancelled) options paths r files = (.ok (q,skipped),files) ∧
        r.Undisturbed q) ∨
      cancelled = true ∧ readReferences (.reading lex cancelled) options paths r files = (.error .cancelled,files) := by
  induction paths with
  | nil => exact fun {r} _ _ => .inl ⟨r,[],rfl,.refl r⟩
  | cons path paths ih =>
    intro r settled nodes
    rw [List.forall_mem_cons] at nodes
    obtain ⟨failure,units,placed,read⟩ := readFile_reading files lex cancelled options [.tracking,.referring] path r
    obtain ⟨next,done,same⟩ := settled.readUnits nodes.1 options fun unit member => (placed unit member).path
    rw [done] at read
    rw [readReferences,read]
    cases failure with
    | none =>
      rcases ih (settled.undisturbed same) (fun other member => Graph.find?_congr same.nodes other ▸ nodes.2 other member)
        with ⟨q,skipped,rest,after⟩ | failed
      · exact .inl ⟨q,skipped,rest,same.trans after⟩
      · exact .inr failed
    | some failure =>
      have noted : r.Undisturbed (next.noteSkipped failure) := ⟨same.locations,same.types,same.aliases,same.nextSerial,same.nodes⟩
      cases cancelled with
      | true => exact .inr ⟨rfl,rfl⟩
      | false =>
        rcases ih (settled.undisturbed noted)
          (fun other member => Graph.find?_congr noted.nodes other ▸ nodes.2 other member)
          with ⟨q,skipped,rest,after⟩ | ⟨called,-⟩
        · refine .inl ⟨q,{ path, pass := .dependencies, failure } :: skipped,?_,noted.trans after⟩
          dsimp only
          rw [rest]
          rfl
        · cases called

/-! ### The type pass -/

namespace Repository

variable {r o : Repository} {path : String}

/-- The types of the table are declared in one file. -/
def Filed (path : String) (r : Repository) : Prop := ∀ p ∈ r.types.all, p.2.file = path

theorem Filed.stable (path : String) : Stable (Filed path) := by
  refine ⟨fun _ _ filed => filed,fun _ _ filed => filed,fun r serial line scopes filed p member => ?_⟩
  obtain ⟨old,listed,changed⟩ := TypeTable.mem_all_map.mp member
  have here := filed _ listed
  rw [← changed]
  split <;> exact here

theorem Filed.enlist (filed : r.Filed path) {d : Declaration} (here : d.file = path) : (r.enlist d).Filed path := by
  intro p member
  rcases TypeTable.mem_all_add member with earlier | rfl
  · exact filed p earlier
  · exact here

theorem Filed.declare (filed : r.Filed path) (role : Role) {semi : Semi} (here : semi.path = path) :
    (role.declare semi r).Filed path := by
  cases role with
  | declares kind name => exact filed.enlist (d := r.beginning semi kind name) here
  | delegates name => exact filed.enlist (d := r.bodiless semi name) here
  | closes => exact (Filed.stable path).leave filed semi
  | opens kind first more =>
    simp only [Role.declare]
    split <;> exact filed
  | binds name first more => exact filed
  | plain => exact filed

theorem own_filed (options : RuleOptions) {units : List Semi} (serial : Nat)
    (placed : ∀ unit ∈ units, unit.Placed path) : (own options path units serial).Filed path := by
  have run : ∀ (more : List Semi) (q : Repository), q.Filed path → (∀ unit ∈ more, unit.Placed path) →
      (q.declared options more).Filed path := by
    intro more
    induction more with
    | nil => exact fun q filed _ => filed
    | cons unit more ih =>
      intro q filed inside
      rw [List.forall_mem_cons] at inside
      exact ih _ (filed.declare _ inside.1.path) inside.2
  have empty : (({ nextSerial := serial } : Repository).beginFile path).Filed path :=
    fun p member => absurd member List.not_mem_nil
  exact (Filed.stable path).endFile (run units _ empty placed) _

/-- Taking over what a file declares keeps a repository settled. -/
theorem Settled.absorb (settled : r.Settled) (tables : o.OwnTables path) (ended : o.AllClosed) (filed : o.Filed path) :
    (r.absorb o path).Settled := by
  obtain ⟨types,-,-,graph⟩ := absorb_tables r tables
  refine ⟨absorb_allClosed settled.closed tables ended,fun p member => ?_⟩
  rw [types] at member
  rw [graph]
  rcases TypeTable.mem_all_merge member with before | added
  · obtain ⟨i,found⟩ := Option.isSome_iff_exists.mp (settled.housed p before)
    rw [Graph.find?_addNode_mono found]
    rfl
  · rw [filed p added,Graph.find?_addNode_self]
    rfl

end Repository

/-- What the type pass finds in a file, whether it can be read or not: some semi-expressions of the file, read into a
repository of its own. -/
def FilePart.Own (options : RuleOptions) (part : FilePart) : Prop :=
  ∃ units serial, (∀ unit ∈ units, unit.Placed part.path) ∧
    part.repository = Repository.own options part.path units serial

theorem readParts_own (files : Files) (lex : Lexicon) (cancelled : Bool) (options : RuleOptions) (paths : List String) :
    ∀ serial, (∃ parts, readParts (.reading lex cancelled) options paths serial files = (.ok parts,files) ∧
        ∀ part ∈ parts, part.Own options) ∨
      cancelled = true ∧ readParts (.reading lex cancelled) options paths serial files = (.error .cancelled,files) := by
  induction paths with
  | nil => exact fun serial => .inl ⟨[],rfl,fun part member => absurd member List.not_mem_nil⟩
  | cons path paths ih =>
    intro serial
    obtain ⟨failure,units,placed,read⟩ :=
      readFile_reading files lex cancelled options [.declaring] path { nextSerial := serial }
    rw [readUnits_declaring] at read
    rw [readParts,read]
    by_cases stopped : (failure.isSome && cancelled) = true
    · refine .inr ⟨(Bool.and_eq_true_iff.mp stopped).2,?_⟩
      simp only [SemiSource.reading,stopped,↓reduceIte]
    · simp only [SemiSource.reading,stopped]
      rcases ih (Repository.own options path units serial).nextSerial with ⟨parts,rest,shapes⟩ | ⟨called,failed⟩
      · refine .inl ⟨⟨path,Repository.own options path units serial,failure⟩ :: parts,?_,?_⟩
        · simp only [SemiSource.reading,Repository.own] at rest ⊢
          rw [rest]
          rfl
        · rw [List.forall_mem_cons]
          exact ⟨⟨units,serial,placed,rfl⟩,shapes⟩
      · refine .inr ⟨called,?_⟩
        simp only [SemiSource.reading,Repository.own] at failed ⊢
        rw [failed]
        rfl

/-- What the type pass has taken over is settled, and the files that succeeded are nodes. -/
structure TypesRead.Settled (found : TypesRead) : Prop where
  repository : found.repository.Settled
  nodes : ∀ path ∈ found.succeeded, (found.repository.graph.find? path).isSome

theorem TypesRead.Settled.take {options : RuleOptions} {found : TypesRead} (settled : found.Settled) {part : FilePart} (own : part.Own options) :
    (found.take part).Settled := by
  obtain ⟨units,serial,placed,repository⟩ := own
  have tables := Repository.own_tables options serial placed
  have absorbed : ∀ r : Repository, r.Settled → (r.absorb part.repository part.path).Settled := by
    intro r before
    rw [repository]
    exact before.absorb tables (Repository.own_allClosed options serial placed) (Repository.own_filed options serial placed)
  have graph : ∀ r : Repository, (r.absorb part.repository part.path).graph = (r.graph.addNode part.path).2 := by
    intro r
    rw [repository]
    exact (Repository.absorb_tables r tables).2.2.2
  have kept : ∀ path ∈ found.succeeded, ((found.repository.graph.addNode part.path).2.find? path).isSome := by
    intro path member
    obtain ⟨i,here⟩ := Option.isSome_iff_exists.mp (settled.nodes path member)
    rw [Graph.find?_addNode_mono here]
    rfl
  unfold TypesRead.take
  split
  · refine ⟨absorbed _ settled.repository,fun path member => ?_⟩
    rw [show ((found.repository.merge part.repository).ensureNode part.path).2 =
      found.repository.absorb part.repository part.path from rfl,graph]
    rcases List.mem_append.mp member with earlier | last
    · exact kept path earlier
    · rw [List.mem_singleton.mp last,Graph.find?_addNode_self]
      rfl
  · rename_i failure _
    -- A note in the journal changes nothing that is settled.
    have noted : (found.repository.noteSkipped failure).Settled :=
      ⟨settled.repository.closed,settled.repository.housed⟩
    dsimp only
    split
    · refine ⟨absorbed _ noted,fun path member => ?_⟩
      rw [show (((found.repository.noteSkipped failure).merge part.repository).ensureNode part.path).2 =
        (found.repository.noteSkipped failure).absorb part.repository part.path from rfl,graph]
      exact kept path member
    · exact ⟨noted,settled.nodes⟩

theorem takeParts_settled {options : RuleOptions} {parts : List FilePart} (own : ∀ part ∈ parts, part.Own options) :
    (takeParts {} parts).Settled := by
  have run : ∀ (parts : List FilePart) (found : TypesRead), found.Settled → (∀ part ∈ parts, part.Own options) →
      (parts.foldl TypesRead.take found).Settled := by
    intro parts
    induction parts with
    | nil => exact fun _ settled _ => settled
    | cons part parts ih =>
      intro found settled own
      rw [List.forall_mem_cons] at own
      exact ih _ (settled.take own.1) own.2
  refine run parts _ ⟨⟨?_,?_⟩,?_⟩ own
  · exact fun d member => absurd member List.not_mem_nil
  · exact fun p member => absurd member List.not_mem_nil
  · exact fun path member => absurd member List.not_mem_nil

/-- Whatever files are given, in whatever order and number, readable or not: either the run was called off and fails
as such, or it succeeds, and between the end of the type pass and the end of the run no field of a declaration, no
entry of the type table and no alias has changed, and no node has been added. What else a repository has, apart from
the journal, are imports, edges and the scopes of the current file. -/
theorem references_disturb_nothing (files : Files) (lex : Lexicon) (cancelled : Bool) (options : RuleOptions)
    (paths : List String) :
    (∃ parts a, readParts (.reading lex cancelled) options paths 0 files = (.ok parts,files) ∧
        analyze (.reading lex cancelled) options paths files = (.ok a,files) ∧
          (takeParts {} parts).repository.Undisturbed a.repository) ∨
      cancelled = true ∧ analyze (.reading lex cancelled) options paths files = (.error .cancelled,files) := by
  unfold analyze Repository.analyze
  rcases readParts_own files lex cancelled options paths 0 with ⟨parts,read,own⟩ | ⟨called,failed⟩
  · rw [read]
    obtain ⟨settled,nodes⟩ := takeParts_settled own
    rcases readReferences_undisturbed files lex cancelled options settled nodes with ⟨q,skipped,done,same⟩ | ⟨called,failed⟩
    · let a : Analysis :=
        { repository := q.note .analysisComplete, files := paths, components := q.graph.components
          skipped := (takeParts {} parts).skipped ++ skipped }
      refine .inl ⟨parts,a,rfl,by simp only [done,a],?_⟩
      exact ⟨same.locations,same.types,same.aliases,same.nextSerial,same.nodes⟩
    · exact .inr ⟨called,by simp only [failed]⟩
  · exact .inr ⟨called,by rw [failed]⟩

end Depends
