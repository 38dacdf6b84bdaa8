import Depends.Proofs.Analysis.Isolation
import Depends.Proofs.Analysis.Soundness
import Depends.Proofs.Graph.Outgoing

/-!
What other files can do to the edges of a file. The references of a file are followed through the type table, its own
aliases and its own imports, and where they lead depends on the table only as far as it says, for a name and a scope, in
which file the earliest type is declared (`TypeTable.home?`). So two runs over whatever other files give a file the same
edges when their type tables agree in the scopes and files of their entries (`edges_undisturbed`).
-/
namespace Depends

/-- The file of the earliest type of a name in a scope. -/
def TypeTable.home? (table : TypeTable) (name : String) (scope : List String) : Option String :=
  ((table.lookup name).find? (·.scope == scope)).map (·.file)

theorem TypeTable.find?_file (table : TypeTable) (name : String) (candidates : List (List String)) :
    (table.find? name candidates).map (·.file) = candidates.findSome? (table.home? name) := by
  rw [TypeTable.find?,List.map_findSome?]
  rfl

/-- Entries with the same scopes and files, in the same order, have the same homes. -/
theorem TypeTable.home?_congr {table other : TypeTable} {name : String}
    (same : (other.lookup name).map (fun d => (d.scope,d.file)) = (table.lookup name).map (fun d => (d.scope,d.file)))
    (scope : List String) : other.home? name scope = table.home? name scope := by
  have through : ∀ declarations : List Declaration, (declarations.find? (·.scope == scope)).map (·.file) =
      ((declarations.map fun d => (d.scope,d.file)).find? (·.1 == scope)).map (·.2) := by
    intro declarations
    rw [List.find?_map,Option.map_map]
    rfl
  rw [TypeTable.home?,TypeTable.home?,through,through,same]

namespace Repository

variable {r q : Repository} {path : String}

/-! ### Where references lead -/

/-- Two repositories in which the references of a file lead to the same files. -/
structure LeadsAlike (path : String) (r q : Repository) : Prop extends r.SameScopes q where
  homes : ∀ name scope, q.types.home? name scope = r.types.home? name scope
  aliases : ∀ name, q.alias? path name = r.alias? path name
  usings : q.usingsOf path = r.usingsOf path

theorem LeadsAlike.resolve? (alike : r.LeadsAlike path q) {part : Semi} (placed : part.path = path) :
    (Action.resolve? part q).map (·.file) = (Action.resolve? part r).map (·.file) := by
  subst placed
  have reference : Action.expandAliases part q = Action.expandAliases part r := by
    simp only [Action.expandAliases,alike.aliases]
  have scopes : ∀ qualifier, Action.candidates part.path qualifier q = Action.candidates part.path qualifier r := by
    intro qualifier
    simp only [Action.candidates,alike.namespacePath,alike.usings]
  have homes : ∀ name, q.types.home? name = r.types.home? name := fun name => funext (alike.homes name)
  unfold Action.resolve?
  rw [reference]
  dsimp only
  cases (Action.expandAliases part r).getLast? with
  | none => rfl
  | some name =>
    simp only [scopes,TypeTable.find?_file,homes]

theorem LeadsAlike.advance (alike : r.LeadsAlike path q) (closed : r.AllClosed) (closed' : q.AllClosed)
    (options : RuleOptions) {unit : Semi} (placed : unit.path = path) :
    (r.advance options unit).LeadsAlike path (q.advance options unit) := by
  have left := Refined.track (roleOf options unit.tokens) unit r
  have right := Refined.track (roleOf options unit.tokens) unit q
  have scopes := alike.toSameScopes.track (roleOf options unit.tokens) unit
  obtain ⟨usings,advanced⟩ := advance_only options unit r
  obtain ⟨usings',advanced'⟩ := advance_only options unit q
  refine ⟨?_,?_,?_,?_⟩
  · rw [advanced,advanced']
    exact ⟨scopes.stack,scopes.scopeCount⟩
  · rw [types_advance closed,types_advance closed']
    exact alike.homes
  · intro name
    have same := alike.aliases name
    simp only [alias?,aliasesOf] at same
    simp only [alias?,aliasesOf,aliases_advance,same]
  · subst placed
    refine usingsOf_importAll_congr ?_ _
    simp only [usingsOf,right.usings,left.usings]
    exact alike.usings

theorem LeadsAlike.referred (options : RuleOptions) {units : List Semi} (placed : ∀ unit ∈ units, unit.path = path) :
    ∀ {r q : Repository}, r.LeadsAlike path q → r.AllClosed → q.AllClosed →
      (referred options units q).map (·.file) = (referred options units r).map (·.file) := by
  induction units with
  | nil => intros; rfl
  | cons unit units ih =>
    intro r q alike closed closed'
    rw [List.forall_mem_cons] at placed
    have advanced := alike.advance closed closed' options placed.1
    have found : ((lookedUp options unit).filterMap (Action.resolve? · (q.advance options unit))).map (·.file) =
        ((lookedUp options unit).filterMap (Action.resolve? · (r.advance options unit))).map (·.file) := by
      rw [List.map_filterMap,List.map_filterMap]
      exact List.filterMap_congr fun part member => advanced.resolve? ((lookedUp_path member).trans placed.1)
    have later := ih placed.2 advanced (advance_allClosed closed options unit) (advance_allClosed closed' options unit)
    rw [Repository.referred,Repository.referred,List.map_append,List.map_append,found,later]

/-- What the references of a file lead to depends on the homes of types, on the aliases of the file and on its imports. -/
theorem targets_of_homes (options : RuleOptions) {units : List Semi} (placed : ∀ unit ∈ units, unit.path = path)
    (closed : r.AllClosed) (closed' : q.AllClosed)
    (homes : ∀ name scope, q.types.home? name scope = r.types.home? name scope)
    (aliases : ∀ name, q.alias? path name = r.alias? path name) (usings : q.usingsOf path = r.usingsOf path) :
    q.targets options path units = r.targets options path units := by
  have alike : (r.beginFile path).LeadsAlike path (q.beginFile path) := ⟨⟨rfl,rfl⟩,homes,aliases,usings⟩
  rw [targets,targets,otherFiles,otherFiles,alike.referred options placed closed closed']

/-! ### The files before and after a file -/

/-- While other files are read nothing changes for a file: not the declarations, not what it has bound and imported, and
not its edges. -/
structure Passing (path : String) (m r : Repository) : Prop where
  types : r.types = m.types
  aliases : r.aliases = m.aliases
  locations : r.locations = m.locations
  usings : r.usingsOf path = m.usingsOf path
  outgoing : r.graph.outgoing? path = m.graph.outgoing? path
  tidy : r.graph.Tidy

theorem Passing.allClosed {m : Repository} (passing : Passing path m r) (closed : m.AllClosed) : r.AllClosed := by
  intro d member
  rw [passing.locations] at member
  exact closed d member

theorem linksFrom_apart {r : Repository} (options : RuleOptions) (path : String) (units : List Semi) :
    ∀ pair ∈ linksFrom path (r.targets options path units), pair.2 ≠ pair.1 := by
  intro pair member
  obtain ⟨target,listed,rfl⟩ := List.mem_map.mp member
  exact (mem_otherFiles.mp listed).1

theorem Referred.outgoing {links : List (String × String)} (after : r.Referred path links q) (tidy : r.graph.Tidy)
    (apart : ∀ pair ∈ links, pair.2 ≠ pair.1) {file : String} {edges : List (String × String)}
    (known : r.graph.outgoing? file = some edges) :
    q.graph.outgoing? file = some (((links.filter (·.1 = file)).map (·.2)).foldl Graph.addTarget edges) := by
  rw [after.graph]
  exact Graph.Tidy.outgoing?_connectAll apart tidy known

/-- Another file passes by. -/
theorem Passing.readUnits {m : Repository} (closed : m.AllClosed) (node : (m.graph.outgoing? path).isSome)
    (passing : Passing path m r) {file : String} (other : file ≠ path) (options : RuleOptions) {units : List Semi}
    (placed : ∀ unit ∈ units, unit.path = file) :
    Passing path m (readUnits options [.tracking,.referring] file units r).2 := by
  obtain ⟨q,read,after⟩ := readUnits_referred options placed (passing.allClosed closed)
  have apart := linksFrom_apart (r := r) options file units
  obtain ⟨edges,known⟩ := Option.isSome_iff_exists.mp node
  have still := after.outgoing passing.tidy apart (passing.outgoing.trans known)
  -- All links that the file adds start at the file.
  have none : (linksFrom file (r.targets options file units)).filter (·.1 = path) = [] := by
    refine List.filter_eq_nil_iff.mpr fun pair member => ?_
    obtain ⟨target,-,rfl⟩ := List.mem_map.mp member
    simpa using other
  rw [none] at still
  rw [read]
  refine ⟨after.types.trans passing.types,after.aliases.trans passing.aliases,after.locations.trans passing.locations,
    (after.usings path other.symm).trans passing.usings,still.trans known.symm,?_⟩
  rw [after.graph]
  exact passing.tidy.connectAll apart

theorem Passing.referAll {m : Repository} (closed : m.AllClosed) (node : (m.graph.outgoing? path).isSome)
    (options : RuleOptions) {files : List (String × List Semi)} (others : path ∉ files.map (·.1))
    (placed : ∀ file ∈ files, ∀ unit ∈ file.2, unit.path = file.1) :
    ∀ {r : Repository}, Passing path m r → Passing path m (r.referAll options files) := by
  induction files with
  | nil => exact fun passing => passing
  | cons file files ih =>
    intro r passing
    rw [List.map_cons,List.mem_cons,not_or] at others
    rw [List.forall_mem_cons] at placed
    exact ih others.2 placed.2 (passing.readUnits closed node (Ne.symm others.1) options placed.1)

/-- In the dependency pass a file that is read once gets the edges that its references lead to, whatever stands before
and after it. -/
theorem referAll_outgoing {m : Repository} (closed : m.AllClosed) (tidy : m.graph.Tidy)
    (node : m.graph.outgoing? path = some []) (options : RuleOptions) {before after : List (String × List Semi)}
    {units : List Semi} (first : path ∉ before.map (·.1)) (last : path ∉ after.map (·.1))
    (placed : ∀ file ∈ before ++ (path,units) :: after, ∀ unit ∈ file.2, unit.path = file.1) :
    (m.referAll options (before ++ (path,units) :: after)).types = m.types ∧
      (m.referAll options (before ++ (path,units) :: after)).graph.outgoing? path =
        some ((m.targets options path units).foldl Graph.addTarget []) := by
  rw [List.forall_mem_append,List.forall_mem_cons] at placed
  obtain ⟨placedBefore,placedHere,placedAfter⟩ := placed
  -- The files before pass by, the file itself is linked to its targets, and the files after pass by again, now from
  -- the repository that the file has left.
  have reached : Passing path m (m.referAll options before) :=
    Passing.referAll closed (by simp [node]) options first placedBefore ⟨rfl,rfl,rfl,rfl,rfl,tidy⟩
  have ended := reached.allClosed closed
  obtain ⟨q,read,here⟩ := readUnits_referred options placedHere ended
  have apart := linksFrom_apart (r := m.referAll options before) options path units
  have edges := here.outgoing reached.tidy apart (reached.outgoing.trans node)
  have own : ((linksFrom path ((m.referAll options before).targets options path units)).filter (·.1 = path)).map (·.2) =
      m.targets options path units := by
    rw [targets_congr options placedHere closed ended reached.types reached.aliases reached.usings]
    simp [linksFrom,List.filter_map,Function.comp_def]
  rw [own] at edges
  have left : Passing path q (q.referAll options after) := by
    refine Passing.referAll (here.allClosed ended) (by simp [edges]) options last placedAfter ⟨rfl,rfl,rfl,rfl,rfl,?_⟩
    rw [here.graph]
    exact reached.tidy.connectAll apart
  have whole : m.referAll options (before ++ (path,units) :: after) = q.referAll options after := by
    rw [referAll,List.foldl_append,List.foldl_cons]
    change (readUnits options [.tracking,.referring] path units (m.referAll options before)).2.referAll options after = _
    rw [read]
  rw [whole]
  exact ⟨left.types.trans (here.types.trans reached.types),left.outgoing.trans edges⟩

/-! ### The type pass -/

/-- The aliases of a file that is taken over are those that it binds itself. -/
theorem alias?_absorb {o : Repository} (tables : o.OwnTables path) (unbound : ∀ name, r.alias? path name = none)
    (name : String) : (r.absorb o path).alias? path name = o.alias? path name := by
  by_cases bound : name ∈ (o.aliasesOf path).map (·.1)
  · obtain ⟨pair,member,rfl⟩ := List.mem_map.mp bound
    rw [alias?_absorb_self r tables pair member,alias?,lookup_of_mem tables.distinct pair member]
  · have absent : (r.merge o).alias? path name = r.alias? path name := by
      rw [merge_eq r tables,alias?_recordAliases_absent bound]
      rfl
    have none : o.alias? path name = none := by
      rw [alias?,List.lookup_eq_none_iff]
      intro pair member
      rw [bne_iff_ne]
      exact fun same => bound (same ▸ List.mem_map_of_mem member)
    exact (absent.trans (unbound name)).trans none.symm

end Repository

section

variable {files : Files} {lex : Lexicon} {options : RuleOptions} {paths : List String} {parts : List FilePart}

theorem ownParts_isPart (files : Files) (lex : Lexicon) (options : RuleOptions) (paths : List String) :
    ∀ serial, List.Forall₂ (IsPart files lex options) paths
      (ownParts options (paths.map fun path => (path,files.unitsAt lex path)) serial) := by
  induction paths with
  | nil => exact fun _ => .nil
  | cons path paths ih => exact fun serial => .cons ⟨rfl,rfl,serial,rfl⟩ (ih _)

/-- Files that are taken over become nodes without edges. -/
theorem absorbAll_nodes (shapes : List.Forall₂ (IsPart files lex options) paths parts) :
    ∀ {r : Repository}, (r.absorbAll parts).graph = paths.foldl (fun g path => (g.addNode path).2) r.graph := by
  induction shapes with
  | nil => exact fun {r} => rfl
  | @cons path part _ _ shape _ ih =>
    intro r
    obtain ⟨-,-,-,grown⟩ := Repository.absorb_tables r shape.tables
    simp only [Repository.absorbAll,List.foldl_cons,shape.path,← grown]
    exact ih

theorem outgoing?_addNodes {path : String} {paths : List String} : ∀ {g : Graph}, (∀ v, g.edges v = []) →
    (path ∈ paths ∨ (g.find? path).isSome) →
      (paths.foldl (fun g path => (g.addNode path).2) g).outgoing? path = some [] := by
  induction paths with
  | nil =>
    intro g bare known
    obtain ⟨i,found⟩ := Option.isSome_iff_exists.mp (known.resolve_left List.not_mem_nil)
    refine Graph.outgoing?_eq_some_iff.mpr ⟨i,found,?_⟩
    rw [List.foldl_nil,bare]
    exact .nil
  | cons first paths ih =>
    intro g bare known
    refine ih (fun v => (Graph.edges_addNode g first v).trans (bare v)) ?_
    rcases known with member | found
    · rcases List.mem_cons.mp member with rfl | later
      · exact .inr (by simp [Graph.find?_addNode_self])
      · exact .inl later
    · obtain ⟨i,found⟩ := Option.isSome_iff_exists.mp found
      exact .inr (by simp [Graph.find?_addNode_mono found])

theorem absorbAll_alias?_other {path : String} (shapes : List.Forall₂ (IsPart files lex options) paths parts)
    (absent : path ∉ paths) (name : String) :
    ∀ {r : Repository}, (r.absorbAll parts).alias? path name = r.alias? path name := by
  induction shapes with
  | nil => exact fun {r} => rfl
  | @cons first part _ _ shape _ ih =>
    intro r
    rw [List.mem_cons,not_or] at absent
    simp only [Repository.absorbAll,List.foldl_cons,shape.path]
    exact (ih absent.2).trans (Repository.alias?_absorb_other r shape.tables absent.1 name)

/-- After the type pass a file that was read once has the aliases that it binds. -/
theorem absorbAll_alias? {path : String} {before after : List String} (first : path ∉ before) (last : path ∉ after)
    (name : String) : ∀ {parts : List FilePart} {r : Repository},
      List.Forall₂ (IsPart files lex options) (before ++ path :: after) parts → (∀ name, r.alias? path name = none) →
        (r.absorbAll parts).alias? path name =
          (Repository.own options path (files.unitsAt lex path) 0).alias? path name := by
  induction before with
  | nil =>
    intro parts r shapes unbound
    obtain ⟨part,rest,shape,later,rfl⟩ := List.forall₂_cons_left_iff.mp shapes
    obtain ⟨serial,own⟩ := shape.repository
    simp only [Repository.absorbAll,List.foldl_cons,shape.path]
    refine (absorbAll_alias?_other later last name).trans ((Repository.alias?_absorb shape.tables unbound name).trans ?_)
    -- The serial from which the file was read does not show in its aliases.
    rw [own,Repository.alias?,Repository.alias?,Repository.aliasesOf,Repository.aliasesOf,
      (Repository.own_alike options path (files.unitsAt lex path) 0 serial).1]
  | cons other before ih =>
    intro parts r shapes unbound
    obtain ⟨part,rest,shape,later,rfl⟩ := List.forall₂_cons_left_iff.mp shapes
    rw [List.mem_cons,not_or] at first
    simp only [Repository.absorbAll,List.foldl_cons,shape.path]
    refine ih first.2 later fun name => ?_
    rw [Repository.alias?_absorb_other r shape.tables first.1,unbound]

end

/-! ### A run over any files -/

/-- The files that can be read, with what stands in them. -/
def Files.given (files : Files) (lex : Lexicon) (paths : List String) : List (String × List Semi) :=
  (paths.filter fun path => (files.semis lex path).isOk).map fun path => (path,files.unitsAt lex path)

theorem Files.given_placed (files : Files) (lex : Lexicon) (paths : List String) :
    ∀ file ∈ files.given lex paths, ∀ unit ∈ file.2, unit.path = file.1 := by
  intro file member unit inside
  obtain ⟨path,-,rfl⟩ := List.mem_map.mp member
  exact (files.unitsAt_placed lex path unit inside).path

theorem Files.given_names (files : Files) (lex : Lexicon) (paths : List String) :
    (files.given lex paths).map (·.1) = paths.filter fun path => (files.semis lex path).isOk := by
  rw [Files.given,List.map_map]
  exact List.map_id _

/-- The files that can be read can be read again. -/
theorem Files.given_again (files : Files) (lex : Lexicon) (paths : List String) :
    files.given lex ((files.given lex paths).map (·.1)) = files.given lex paths := by
  rw [Files.given_names,Files.given,List.filter_filter]
  simp only [Bool.and_self]
  rfl

theorem reading_answers (files : Files) (lex : Lexicon) (paths : List String) :
    (SemiSource.reading lex false).answers paths files =
      paths.map fun path => (path,files.semisUnless false lex path) := by
  induction paths with
  | nil => rfl
  | cons path paths ih => exact congrArg _ ih

theorem reading_given (files : Files) (lex : Lexicon) (paths : List String) :
    ((SemiSource.reading lex false).answers paths files).given = files.given lex paths := by
  rw [reading_answers]
  induction paths with
  | nil => rfl
  | cons path paths ih =>
    rw [List.map_cons]
    cases read : files.semis lex path with
    | error failure =>
      have answer : files.semisUnless false lex path = .error (.failed failure) := by rw [Files.semisUnless,read]
      rw [answer,Answers.given_error,ih,Files.given,Files.given,
        List.filter_cons_of_neg (by simp [read,Except.isOk,Except.toBool])]
    | ok units =>
      have answer : files.semisUnless false lex path = .ok units := by rw [Files.semisUnless,read]; rfl
      have same : files.unitsAt lex path = units := by rw [Files.unitsAt,read]
      rw [answer,Answers.given_ok,ih,Files.given,Files.given,
        List.filter_cons_of_pos (by simp [read,Except.isOk,Except.toBool]),List.map_cons,same]

/-- A file that cannot be opened or read is no malformed construct. -/
theorem reading_benign (files : Files) (lex : Lexicon) (paths : List String) :
    ((SemiSource.reading lex false).answers paths files).Benign := by
  intro path fault member
  rw [reading_answers] at member
  obtain ⟨other,-,same⟩ := List.mem_map.mp member
  obtain ⟨rfl,refused⟩ := Prod.mk.inj same
  unfold Files.semisUnless Files.semis at refused
  split at refused
  · rename_i failure read
    obtain rfl : ReadFault.failed failure = fault := Except.error.inj refused
    split at read
    · cases read
      rfl
    · cases read
      rfl
    · cases read
  · cases refused

theorem reading_again (files : Files) (lex : Lexicon) (paths : List String) :
    ∀ answer ∈ (SemiSource.reading lex false).answers ((files.given lex paths).map (·.1)) files, answer.2.isOk := by
  intro answer member
  rw [reading_answers,Files.given_names] at member
  obtain ⟨path,listed,rfl⟩ := List.mem_map.mp member
  obtain ⟨-,ok⟩ := List.mem_filter.mp listed
  cases read : files.semis lex path with
  | error failure => simp [read,Except.isOk,Except.toBool] at ok
  | ok units => simp [Files.semisUnless,read,Except.isOk,Except.toBool]

/-- What the type pass over files leaves. -/
def Files.absorbed (files : Files) (lex : Lexicon) (options : RuleOptions) (paths : List String) : Repository :=
  Repository.absorbAll {} (ownParts options (files.given lex paths) 0)

/-- What a run over files leaves, up to the journal. -/
def Files.analyzed (files : Files) (lex : Lexicon) (options : RuleOptions) (paths : List String) : Repository :=
  (files.absorbed lex options paths).referAll options (files.given lex paths)

/-- Whatever the files are: a run takes over those that can be read and then reads their references. -/
theorem analyze_reading (files : Files) (lex : Lexicon) (options : RuleOptions) (paths : List String) :
    ∃ a, analyze (.reading lex false) options paths files = (.ok a,files) ∧ a.components = a.graph.components ∧
      a.repository.Agrees (files.analyzed lex options paths) := by
  have given := reading_given files lex paths
  have again := reading_again files lex paths
  rw [← given] at again
  obtain ⟨a,run,-,components,agrees⟩ := analyze_answers (reading_running lex files) options paths {}
    (reading_benign files lex paths) (by rwa [after_reading])
  rw [given,after_reading,reading_given,Files.given_again] at agrees
  rw [after_reading,after_reading] at run
  exact ⟨a,run,components,agrees⟩

section

variable {path : String} {paths : List String}

theorem absorbed_shapes (files : Files) (lex : Lexicon) (options : RuleOptions) (paths : List String) :
    List.Forall₂ (IsPart files lex options) (paths.filter fun path => (files.semis lex path).isOk)
      (ownParts options (files.given lex paths) 0) :=
  ownParts_isPart files lex options _ 0

theorem absorbed_allClosed (files : Files) (lex : Lexicon) (options : RuleOptions) (paths : List String) :
    (files.absorbed lex options paths).AllClosed :=
  absorbAll_allClosed (absorbed_shapes files lex options paths) fun _ member => absurd member List.not_mem_nil

theorem absorbed_tidy (files : Files) (lex : Lexicon) (options : RuleOptions) (paths : List String) :
    (files.absorbed lex options paths).graph.Tidy :=
  absorbAll_tidy (absorbed_shapes files lex options paths) Graph.Tidy.empty

theorem absorbed_usings (files : Files) (lex : Lexicon) (options : RuleOptions) (paths : List String) :
    (files.absorbed lex options paths).usings = [] :=
  (absorbAll_unlinked (absorbed_shapes files lex options paths) Graph.closed_empty).1

theorem split_once (once : paths.count path = 1) :
    ∃ before after, paths = before ++ path :: after ∧ path ∉ before ∧ path ∉ after := by
  have member : path ∈ paths := List.count_pos_iff.mp (by omega)
  obtain ⟨before,after,rfl⟩ := List.append_of_mem member
  rw [List.count_append,List.count_cons_self] at once
  exact ⟨before,after,rfl,List.count_eq_zero.mp (by omega),List.count_eq_zero.mp (by omega)⟩

/-- The edges that a run gives a file that can be read and is listed once, and the aliases with which its references are
followed. -/
theorem analyzed_edges (files : Files) (lex : Lexicon) (options : RuleOptions) (readable : files.Readable path)
    (once : paths.count path = 1) :
    (files.analyzed lex options paths).types = (files.absorbed lex options paths).types ∧
      (files.analyzed lex options paths).graph.outgoing? path =
          some (((files.absorbed lex options paths).targets options path (files.unitsAt lex path)).foldl
            Graph.addTarget []) ∧
        ∀ name, (files.absorbed lex options paths).alias? path name =
          (Repository.own options path (files.unitsAt lex path) 0).alias? path name := by
  have single : (paths.filter fun path => (files.semis lex path).isOk).count path = 1 := by
    rw [List.count_filter (by rw [Files.semis_eq lex readable]; rfl),once]
  obtain ⟨before,after,split,first,last⟩ := split_once single
  have shapes := absorbed_shapes files lex options paths
  have given : files.given lex paths = before.map (fun path => (path,files.unitsAt lex path)) ++
      (path,files.unitsAt lex path) :: after.map fun path => (path,files.unitsAt lex path) := by
    rw [Files.given,split,List.map_append,List.map_cons]
  have node : (files.absorbed lex options paths).graph.outgoing? path = some [] := by
    rw [Files.absorbed,absorbAll_nodes shapes]
    refine outgoing?_addNodes (fun v => rfl) (.inl ?_)
    simp [split]
  have names : ∀ paths : List String,
      (paths.map fun path => (path,files.unitsAt lex path)).map (·.1) = paths := by
    intro paths
    rw [List.map_map]
    exact List.map_id _
  have placed := files.given_placed lex paths
  rw [given] at placed
  have run := Repository.referAll_outgoing (absorbed_allClosed files lex options paths)
    (absorbed_tidy files lex options paths) node options (by rwa [names]) (by rwa [names]) placed
  rw [← given] at run
  rw [split] at shapes
  exact ⟨run.1,run.2,fun name => absorbAll_alias? first last name shapes fun name => rfl⟩

end

/-- Two runs give a file with the same text the same edges when their type tables lead to the same files. -/
theorem edges_of_homes (lex : Lexicon) (options : RuleOptions) {path : String} {files files' : Files}
    {paths paths' : List String} (readable : files.Readable path) (readable' : files'.Readable path)
    (units : files'.unitsAt lex path = files.unitsAt lex path) (once : paths.count path = 1)
    (once' : paths'.count path = 1)
    (homes : ∀ name scope, (files'.absorbed lex options paths').types.home? name scope =
      (files.absorbed lex options paths).types.home? name scope) :
    ∃ edges, (files.analyzed lex options paths).graph.outgoing? path = some edges ∧
      (files'.analyzed lex options paths').graph.outgoing? path = some edges := by
  obtain ⟨-,edges,aliases⟩ := analyzed_edges files lex options readable once
  obtain ⟨-,edges',aliases'⟩ := analyzed_edges files' lex options readable' once'
  rw [units] at edges' aliases'
  have same := Repository.targets_of_homes options (fun unit member => (files.unitsAt_placed lex path unit member).path)
    (absorbed_allClosed files lex options paths) (absorbed_allClosed files' lex options paths') homes
    (fun name => (aliases' name).trans (aliases name).symm)
    (by simp [Repository.usingsOf,absorbed_usings])
  rw [same] at edges'
  exact ⟨_,edges,edges'⟩

/-- What is read in a file depends on its content only. -/
theorem Files.unitsAt_congr (lex : Lexicon) {path : String} {files files' : Files} {file file' : File}
    (stands : files.open? path = .ok file) (stands' : files'.open? path = .ok file')
    (text : file'.content = file.content) : files'.unitsAt lex path = files.unitsAt lex path := by
  rw [unitsAt,unitsAt,semis_of_open stands,semis_of_open stands',text]

/-- Two runs, over whatever files in whatever order, that each list a file once and read the same text in it: when for
every name the two type tables have entries of the same scopes and files in the same order, the file has the same edges
in both, with the same targets and labels in the same order. -/
theorem edges_undisturbed (lex : Lexicon) (options : RuleOptions) {path : String} {files files' : Files}
    {paths paths' : List String} {file file' : File} (stands : files.open? path = .ok file)
    (stands' : files'.open? path = .ok file') (text : file'.content = file.content)
    (once : paths.count path = 1) (once' : paths'.count path = 1) :
    ∃ a b, analyze (.reading lex false) options paths files = (.ok a,files) ∧
      analyze (.reading lex false) options paths' files' = (.ok b,files') ∧
        ((∀ name, (b.repository.types.lookup name).map (fun d => (d.scope,d.file)) =
            (a.repository.types.lookup name).map fun d => (d.scope,d.file)) →
          ∃ edges, a.graph.outgoing? path = some edges ∧ b.graph.outgoing? path = some edges) := by
  obtain ⟨a,run,-,agrees⟩ := analyze_reading files lex options paths
  obtain ⟨b,run',-,agrees'⟩ := analyze_reading files' lex options paths'
  refine ⟨a,b,run,run',fun entries => ?_⟩
  have types := (analyzed_edges files lex options ⟨file,stands⟩ once).1
  have types' := (analyzed_edges files' lex options ⟨file',stands'⟩ once').1
  rw [Analysis.graph,Analysis.graph,agrees.graph,agrees'.graph]
  refine edges_of_homes lex options ⟨file,stands⟩ ⟨file',stands'⟩ (Files.unitsAt_congr lex stands stands' text) once once' ?_
  intro name scope
  rw [← types,← types',← agrees.types,← agrees'.types]
  exact TypeTable.home?_congr (entries name) scope

/-- The scopes and the files of the entries of a type table. -/
def TypeTable.sites (table : TypeTable) : List (String × List (List String × String)) :=
  table.entries.map fun entry => (entry.1,entry.2.map fun d => (d.scope,d.file))

theorem TypeTable.lookup_sites (table : TypeTable) (name : String) :
    (table.lookup name).map (fun d => (d.scope,d.file)) = (table.sites.lookup name).getD [] := by
  simp only [lookup,sites]
  generalize table.entries = entries
  induction entries with
  | nil => rfl
  | cons entry entries ih =>
    obtain ⟨key,declarations⟩ := entry
    by_cases here : name = key
    · simp [here]
    · rw [List.map_cons,lookup_cons_ne here,lookup_cons_ne here,ih]

/-- A file beside one with a namespace and a type. -/
def tidyNeighbour : Files := twoFiles "namespace N \x7b class Foo \x7b \x7d \x7d" "using N; class B \x7b Foo f; \x7d"

/-- The same file beside one that binds an alias, refers to nothing and leaves its scopes open. -/
def untidyNeighbour : Files :=
  twoFiles "using Foo = M.Bar; namespace N \x7b class Foo \x7b Bar b; void Run ( ) \x7b" "using N; class B \x7b Foo f; \x7d"

/-- The sites of the types that a run finds. -/
def sitesOfRun (paths : List String) (files : Files) : Option (List (String × List (List String × String))) :=
  (analyze (.reading .standard false) .standard paths files).1.toOption.map (·.repository.types.sites)

/-- The edges that a run gives a file. -/
def edgesOfRun (paths : List String) (files : Files) (path : String) : Option (List (String × String)) :=
  (analyze (.reading .standard false) .standard paths files).1.toOption.bind (·.graph.outgoing? path)

set_option maxRecDepth 100000 in
/-- The file comes last in one run; in the other it comes first, with a missing file between. -/
theorem untidy_neighbour_unnoticed :
    ∃ a b, analyze (.reading .standard false) .standard ["a.cs","b.cs"] tidyNeighbour = (.ok a,tidyNeighbour) ∧
      analyze (.reading .standard false) .standard ["b.cs","c.cs","a.cs"] untidyNeighbour = (.ok b,untidyNeighbour) ∧
        (∀ name, (b.repository.types.lookup name).map (fun d => (d.scope,d.file)) =
          (a.repository.types.lookup name).map fun d => (d.scope,d.file)) ∧
            a.graph.outgoing? "b.cs" = some [("a.cs","a.cs")] ∧ b.graph.outgoing? "b.cs" = some [("a.cs","a.cs")] := by
  let here : File := { content := .bytes "using N; class B \x7b Foo f; \x7d".toUTF8.toList, modified := 0 }
  have stands : tidyNeighbour.open? "b.cs" = .ok here := rfl
  have stands' : untidyNeighbour.open? "b.cs" = .ok here := rfl
  have last : ["a.cs","b.cs"].count "b.cs" = 1 := by decide
  have first : ["b.cs","c.cs","a.cs"].count "b.cs" = 1 := by decide
  obtain ⟨a,b,run,run',undisturbed⟩ := edges_undisturbed .standard .standard stands stands' rfl last first
  have sites : sitesOfRun ["a.cs","b.cs"] tidyNeighbour = some [("Foo",[(["N"],"a.cs")]),("B",[([],"b.cs")])] := by
    decide +kernel
  have sites' : sitesOfRun ["b.cs","c.cs","a.cs"] untidyNeighbour = some [("B",[([],"b.cs")]),("Foo",[(["N"],"a.cs")])] := by
    decide +kernel
  have edges : edgesOfRun ["a.cs","b.cs"] tidyNeighbour "b.cs" = some [("a.cs","a.cs")] := by decide +kernel
  rw [sitesOfRun,run] at sites
  rw [sitesOfRun,run'] at sites'
  rw [edgesOfRun,run] at edges
  have entries : ∀ name, (b.repository.types.lookup name).map (fun d => (d.scope,d.file)) =
      (a.repository.types.lookup name).map fun d => (d.scope,d.file) := by
    intro name
    have left : a.repository.types.sites = _ := Option.some.inj sites
    have right : b.repository.types.sites = _ := Option.some.inj sites'
    rw [TypeTable.lookup_sites,TypeTable.lookup_sites,left,right]
    by_cases foo : name = "Foo"
    · rw [foo]
      rfl
    · by_cases type : name = "B"
      · rw [type]
        rfl
      · rw [lookup_cons_ne foo,lookup_cons_ne type,lookup_cons_ne type,lookup_cons_ne foo]
  obtain ⟨found,left,right⟩ := undisturbed entries
  obtain rfl : found = [("a.cs","a.cs")] := Option.some.inj (left.symm.trans edges)
  exact ⟨a,b,run,run',entries,left,right⟩

end Depends
