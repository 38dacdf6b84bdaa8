import Depends.Analysis.Run
import Depends.Proofs.Repository.Absorbing
import Mathlib.Data.List.Basic

/-!
The dependency pass. The files that the references of a file lead to are `Repository.targets`: they depend
on the declared types, on the aliases of the file and on what the file imports, and on nothing that the
other files of the pass add (`targets_congr`). The pass links each file to its targets and leaves the
declarations alone (`readReferences_eq`).
-/
namespace Depends
namespace Repository

variable {r q : Repository} {path : String}

/-- Imports namespaces into a file. -/
def importAll (r : Repository) (file : String) (paths : List (List String)) : Repository :=
  paths.foldl (fun r path => r.recordUsing file path) r

/-- The repository in which the references of a semi-expression are looked up: its scope is open or
closed, and its imports are recorded. -/
def advance (options : RuleOptions) (unit : Semi) (r : Repository) : Repository :=
  ((roleOf options unit.tokens).track unit r).importAll unit.path (imported options unit)

/-- The declarations that the references of semi-expressions mean, in order. -/
def referred (options : RuleOptions) : List Semi → Repository → List Declaration
  | [], _ => []
  | unit :: units, r =>
    (lookedUp options unit).filterMap (Action.resolve? · (r.advance options unit)) ++
      referred options units (r.advance options unit)

/-- The other files among those of declarations. -/
def otherFiles (path : String) (declarations : List Declaration) : List String :=
  (declarations.map (·.file)).filter (· ≠ path)

/-- The other files that the references of a file lead to, in order, when the file is read with the
types, the aliases and the imports that a repository has. -/
def targets (r : Repository) (options : RuleOptions) (path : String) (units : List Semi) : List String :=
  otherFiles path (referred options units (r.beginFile path))

theorem recordUsing_only (r : Repository) (file : String) (space : List String) :
    ∃ usings, r.recordUsing file space = { r with usings } := by
  unfold recordUsing
  split
  · exact ⟨r.usings,rfl⟩
  · exact ⟨_,rfl⟩

theorem importAll_only (r : Repository) (file : String) (paths : List (List String)) :
    ∃ usings, r.importAll file paths = { r with usings } := by
  induction paths generalizing r with
  | nil => exact ⟨r.usings,rfl⟩
  | cons first paths ih =>
    obtain ⟨usings,same⟩ := recordUsing_only r file first
    obtain ⟨usings',later⟩ := ih (r.recordUsing file first)
    refine ⟨usings',later.trans ?_⟩
    rw [same]

theorem usingsOf_importAll_other {other file : String} (different : other ≠ file) (paths : List (List String)) :
    (r.importAll file paths).usingsOf other = r.usingsOf other := by
  induction paths generalizing r with
  | nil => rfl
  | cons first paths ih =>
    have later := ih (r := r.recordUsing file first)
    rw [usingsOf_recordUsing_other different] at later
    exact later

theorem usingsOf_importAll_congr {file : String} (same : q.usingsOf file = r.usingsOf file)
    (paths : List (List String)) : (q.importAll file paths).usingsOf file = (r.importAll file paths).usingsOf file := by
  induction paths generalizing r q with
  | nil => exact same
  | cons first paths ih =>
    refine ih ?_
    rw [usingsOf_recordUsing_self,usingsOf_recordUsing_self,same]

/-! ### What a file sees -/

/-- Two repositories between which the references of a file see no difference. -/
structure Sees (path : String) (r q : Repository) : Prop extends r.SameScopes q where
  types : q.types = r.types
  aliases : q.aliases = r.aliases
  usings : q.usingsOf path = r.usingsOf path

theorem Sees.resolve? (sees : r.Sees path q) {part : Semi} (placed : part.path = path) :
    Action.resolve? part q = Action.resolve? part r := by
  have usings := placed ▸ sees.usings
  simp only [Action.resolve?,Action.expandAliases,Action.candidates,alias?,aliasesOf,sees.aliases,sees.types,
    sees.namespacePath,usings]

/-- What a reference means is the earliest type of its name in the first candidate scope that has one. -/
theorem resolve?_eq_some {part : Semi} {d : Declaration} (found : Action.resolve? part r = some d) :
    ∃ qualifier name, Action.expandAliases part r = qualifier ++ [name] ∧
      r.types.Earliest name (Action.candidates part.path qualifier r) d := by
  unfold Action.resolve? at found
  extract_lets reference at found
  split at found
  · cases found
  · rename_i name last
    obtain ⟨qualifier,expanded⟩ := List.getLast?_eq_some_iff.mp last
    refine ⟨qualifier,name,expanded,TypeTable.find?_eq_some_iff.mp ?_⟩
    rwa [expanded,List.dropLast_concat] at found

/-- A semi-expression changes the scopes and the imports. -/
theorem advance_only (options : RuleOptions) (unit : Semi) (r : Repository) :
    ∃ usings, r.advance options unit = { (roleOf options unit.tokens).track unit r with usings } :=
  importAll_only ((roleOf options unit.tokens).track unit r) unit.path (imported options unit)

theorem advance_allClosed (closed : r.AllClosed) (options : RuleOptions) (unit : Semi) :
    (r.advance options unit).AllClosed := by
  obtain ⟨usings,advanced⟩ := advance_only options unit r
  rw [advanced]
  exact (Refined.track (roleOf options unit.tokens) unit r).allClosed closed

theorem types_advance (closed : r.AllClosed) (options : RuleOptions) (unit : Semi) :
    (r.advance options unit).types = r.types := by
  obtain ⟨usings,advanced⟩ := advance_only options unit r
  rw [advanced]
  exact (Refined.track (roleOf options unit.tokens) unit r).types_eq closed

theorem aliases_advance (options : RuleOptions) (unit : Semi) (r : Repository) :
    (r.advance options unit).aliases = r.aliases := by
  obtain ⟨usings,advanced⟩ := advance_only options unit r
  rw [advanced]
  exact (Refined.track (roleOf options unit.tokens) unit r).aliases

/-- One semi-expression of the file leaves no difference. -/
theorem Sees.advance (sees : r.Sees path q) (closed : r.AllClosed) (closed' : q.AllClosed) (options : RuleOptions)
    {unit : Semi} (placed : unit.path = path) : (r.advance options unit).Sees path (q.advance options unit) := by
  have left := Refined.track (roleOf options unit.tokens) unit r
  have right := Refined.track (roleOf options unit.tokens) unit q
  have scopes := sees.toSameScopes.track (roleOf options unit.tokens) unit
  obtain ⟨usings,advanced⟩ := advance_only options unit r
  obtain ⟨usings',advanced'⟩ := advance_only options unit q
  refine ⟨?_,?_,?_,?_⟩
  · rw [advanced,advanced']
    exact ⟨scopes.stack,scopes.scopeCount⟩
  · rw [types_advance closed,types_advance closed',sees.types]
  · rw [aliases_advance,aliases_advance,sees.aliases]
  · rw [← placed] at sees ⊢
    refine usingsOf_importAll_congr ?_ _
    simp only [usingsOf,right.usings,left.usings]
    exact sees.usings

theorem lookedUp_path {options : RuleOptions} {unit part : Semi} (member : part ∈ lookedUp options unit) :
    part.path = unit.path := by
  have handed : ∀ (rule : Rule) (parts : List Semi), rule.test options unit = some parts → ∀ p ∈ parts,
      p.path = unit.path := by
    intro rule parts taken p listed
    obtain ⟨tokens,-,rfl⟩ := Option.map_eq_some_iff.mp taken
    obtain ⟨token,-,rfl⟩ := List.mem_map.mp listed
    rfl
  unfold lookedUp at member
  split at member
  · cases member
  · cases inherited : Rule.inherited.test options unit with
    | some parts =>
      rw [inherited,Option.some_or] at member
      exact handed _ parts inherited part member
    | none =>
      rw [inherited,Option.none_or] at member
      cases reference : Rule.reference.test options unit with
      | some parts =>
        rw [reference] at member
        exact handed _ parts reference part member
      | none =>
        rw [reference] at member
        cases member

theorem Sees.referred (options : RuleOptions) {units : List Semi} (placed : ∀ unit ∈ units, unit.path = path) :
    ∀ {r q : Repository}, r.Sees path q → r.AllClosed → q.AllClosed →
      referred options units q = referred options units r := by
  induction units with
  | nil => intros; rfl
  | cons unit units ih =>
    intro r q sees closed closed'
    have here := placed unit (List.mem_cons_self ..)
    have advanced := sees.advance closed closed' options here
    have found : (lookedUp options unit).filterMap (Action.resolve? · (q.advance options unit)) =
        (lookedUp options unit).filterMap (Action.resolve? · (r.advance options unit)) :=
      List.filterMap_congr fun part member => advanced.resolve? ((lookedUp_path member).trans here)
    rw [Repository.referred,Repository.referred,found]
    rw [ih (fun other member => placed other (List.mem_cons_of_mem _ member)) advanced
      (advance_allClosed closed options unit) (advance_allClosed closed' options unit)]

theorem targets_congr (options : RuleOptions) {units : List Semi} (placed : ∀ unit ∈ units, unit.path = path)
    (closed : r.AllClosed) (closed' : q.AllClosed) (types : q.types = r.types) (aliases : q.aliases = r.aliases)
    (usings : q.usingsOf path = r.usingsOf path) : q.targets options path units = r.targets options path units := by
  have sees : (r.beginFile path).Sees path (q.beginFile path) := ⟨⟨rfl,rfl⟩,types,aliases,usings⟩
  rw [targets,targets,sees.referred options placed closed closed']

/-! ### Reading references -/

/-- The links from a file to other ones. -/
def linksFrom (path : String) (files : List String) : List (String × String) := files.map (path,·)

theorem addReferenceOn_eq (part : Semi) (r : Repository) :
    ∃ journal, Action.addReferenceOn part r =
      { r with
        graph := r.graph.connectAll (linksFrom part.path (otherFiles part.path (Action.resolve? part r).toList))
        journal } := by
  unfold Action.addReferenceOn
  cases Action.resolve? part r with
  | none => exact ⟨r.journal,rfl⟩
  | some d =>
    dsimp only
    by_cases here : d.file = part.path
    · exact ⟨r.journal,by simp [here,otherFiles,linksFrom,Graph.connectAll]⟩
    · simp only [here,↓reduceIte,otherFiles,Option.toList_some,List.map_cons,List.map_nil,linksFrom,Graph.connectAll,
        List.filter_cons,ne_eq,not_false_eq_true,decide_true,List.filter_nil,List.foldl_cons,List.foldl_nil]
      split
      · exact ⟨_,rfl⟩
      · exact ⟨_,rfl⟩

theorem links_append (path : String) (first second : List Declaration) :
    linksFrom path (otherFiles path (first ++ second)) =
      linksFrom path (otherFiles path first) ++ linksFrom path (otherFiles path second) := by
  simp [linksFrom,otherFiles]

theorem addReferences_eq {parts : List Semi} (placed : ∀ part ∈ parts, part.path = path) (r : Repository) :
    ∃ journal, parts.foldl (fun r part => Action.addReferenceOn part r) r =
      { r with
        graph := r.graph.connectAll (linksFrom path (otherFiles path (parts.filterMap (Action.resolve? · r))))
        journal } := by
  induction parts generalizing r with
  | nil => exact ⟨r.journal,rfl⟩
  | cons part parts ih =>
    have here := placed part (List.mem_cons_self ..)
    obtain ⟨journal,first⟩ := addReferenceOn_eq part r
    obtain ⟨journal',later⟩ := ih (fun other member => placed other (List.mem_cons_of_mem _ member))
      (Action.addReferenceOn part r)
    refine ⟨journal',later.trans ?_⟩
    rw [first,here]
    have same : ∀ (graph : Graph) (p : Semi), Action.resolve? p { r with graph, journal } = Action.resolve? p r :=
      fun _ _ => rfl
    have split : (part :: parts).filterMap (Action.resolve? · r) =
        (Action.resolve? part r).toList ++ parts.filterMap (Action.resolve? · r) := by
      rw [List.filterMap_cons]
      cases Action.resolve? part r <;> rfl
    simp only [same,split,links_append,Graph.connectAll_append]

/-- The repository after a file of the dependency pass: linked to the targets of the file, with imports of
the file only. -/
structure Referred (path : String) (links : List (String × String)) (r q : Repository) : Prop where
  types : q.types = r.types
  aliases : q.aliases = r.aliases
  locations : q.locations = r.locations
  usings : ∀ other, other ≠ path → q.usingsOf other = r.usingsOf other
  graph : q.graph = r.graph.connectAll links

theorem Referred.allClosed {links : List (String × String)} (after : r.Referred path links q) (closed : r.AllClosed) :
    q.AllClosed := by
  intro d member
  rw [after.locations] at member
  exact closed d member

/-- One semi-expression in the dependency pass. -/
theorem applyAll_referred (options : RuleOptions) {unit : Semi} (placed : unit.path = path) (closed : r.AllClosed) :
    ∃ q, applyAll options unit [.tracking,.referring] r = (.ok (),q) ∧ (r.advance options unit).Sees path q ∧
      r.Referred path (linksFrom path (otherFiles path ((lookedUp options unit).filterMap
        (Action.resolve? · (r.advance options unit))))) q := by
  obtain ⟨journal,added⟩ := addReferences_eq (fun part member => (lookedUp_path member).trans placed)
    (r.advance options unit)
  refine ⟨_,(applyAll_references options unit r).trans (congrArg _ added),⟨⟨rfl,rfl⟩,rfl,rfl,rfl⟩,?_⟩
  have tracked := Refined.track (roleOf options unit.tokens) unit r
  have others : ∀ other, other ≠ path → (r.advance options unit).usingsOf other = r.usingsOf other := by
    intro other different
    rw [advance,usingsOf_importAll_other (placed ▸ different)]
    simp only [usingsOf,tracked.usings]
  obtain ⟨usings,advanced⟩ := advance_only options unit r
  refine ⟨types_advance closed options unit,aliases_advance options unit r,?_,others,?_⟩
  · simp only [advanced,tracked.locations_eq closed]
  · have graph : (r.advance options unit).graph = r.graph := by simp only [advanced,tracked.graph]
    simp only [graph]

theorem Referred.trans {s : Repository} {links more : List (String × String)} (first : r.Referred path links q)
    (second : q.Referred path more s) : r.Referred path (links ++ more) s := by
  refine ⟨second.types.trans first.types,second.aliases.trans first.aliases,second.locations.trans first.locations,?_,?_⟩
  · exact fun other different => (second.usings other different).trans (first.usings other different)
  · rw [second.graph,first.graph,Graph.connectAll_append]

/-- The semi-expressions of a file in the dependency pass. -/
theorem offerAll_referred (options : RuleOptions) {units : List Semi} (placed : ∀ unit ∈ units, unit.path = path) :
    ∀ {r : Repository} (line : Int), r.AllClosed → ∃ last q,
      offerAll options [.tracking,.referring] units line r = (none,last,q) ∧
        r.Referred path (linksFrom path (otherFiles path (referred options units r))) q := by
  induction units with
  | nil => exact fun {r} line _ => ⟨line,r,rfl,rfl,rfl,rfl,fun _ _ => rfl,rfl⟩
  | cons unit units ih =>
    intro r line closed
    have later : ∀ other ∈ units, other.path = path := fun other member => placed other (List.mem_cons_of_mem _ member)
    obtain ⟨next,applied,sees,first⟩ := applyAll_referred options (placed unit (List.mem_cons_self ..)) closed
    obtain ⟨last,q,offered,second⟩ := ih later unit.line (first.allClosed closed)
    refine ⟨last,q,?_,?_⟩
    · rw [offerAll,applied]
      exact offered
    · rw [sees.referred options later (advance_allClosed closed options unit) (first.allClosed closed)] at second
      rw [referred,links_append]
      exact first.trans second

/-- A file of the dependency pass does not fail and is linked to its targets. -/
theorem readUnits_referred (options : RuleOptions) {units : List Semi} (placed : ∀ unit ∈ units, unit.path = path)
    (closed : r.AllClosed) :
    ∃ q, readUnits options [.tracking,.referring] path units r = (none,q) ∧
      r.Referred path (linksFrom path (r.targets options path units)) q := by
  have started : (r.beginFile path).AllClosed := closed
  obtain ⟨last,q,offered,after⟩ := offerAll_referred options placed 0 started
  have ended := Refined.endFile q last
  have still := after.allClosed started
  refine ⟨q.endFile last,?_,?_⟩
  · simp only [readUnits,offered,Option.map_none]
  · refine ⟨(ended.types_eq still).trans after.types,ended.aliases.trans after.aliases,
      (ended.locations_eq still).trans after.locations,?_,ended.graph.trans after.graph⟩
    intro other different
    simp only [usingsOf,ended.usings]
    exact after.usings other different

end Repository

/-! ### All files -/

/-- The semi-expressions of a readable file; none of another one. -/
def Files.unitsAt (files : Files) (lex : Lexicon) (path : String) : List Semi :=
  match files.semis lex path with
  | .ok units => units
  | .error _ => []

/-- The file at a path can be opened and read. -/
def Files.Readable (files : Files) (path : String) : Prop := ∃ file, files.open? path = .ok file

/-- What is read at a path is the text of the file. -/
theorem Files.semis_of_open {files : Files} {path : String} {file : File} (opened : files.open? path = .ok file)
    (lex : Lexicon) : files.semis lex path = .ok (Depends.semis lex path (Text.decode file.content.data)) := by
  rw [open?] at opened
  rw [Files.semis]
  cases found : files.opened path with
  | error refusal =>
    rw [found] at opened
    cases opened
  | ok tree =>
    rw [found] at opened
    cases tree with
    | folder entries => cases opened
    | file other =>
      cases opened
      rfl

theorem Files.semis_eq {files : Files} (lex : Lexicon) {path : String} (readable : files.Readable path) :
    files.semis lex path = .ok (files.unitsAt lex path) := by
  obtain ⟨file,opened⟩ := readable
  rw [unitsAt,semis_of_open opened]

theorem Files.semis_unreadable {files : Files} {path : String} (unreadable : ¬ files.Readable path) (lex : Lexicon) :
    ∃ failure, files.semis lex path = .error failure ∧ failure.hasCode .sourceUnavailable = true := by
  unfold Files.semis
  cases found : files.opened path with
  | error refusal => exact ⟨_,rfl,rfl⟩
  | ok tree =>
    cases tree with
    | folder entries => exact ⟨_,rfl,rfl⟩
    | file file => exact absurd ⟨file,by rw [open?,found]⟩ unreadable

theorem Files.unitsAt_placed (files : Files) (lex : Lexicon) (path : String) :
    ∀ unit ∈ files.unitsAt lex path, unit.Placed path := by
  intro unit member
  by_cases readable : files.Readable path
  · obtain ⟨file,opened⟩ := readable
    rw [unitsAt,semis_of_open opened] at member
    exact semis_placed lex path _ unit member
  · obtain ⟨failure,refused,-⟩ := semis_unreadable readable lex
    rw [unitsAt,refused] at member
    cases member

theorem readFile_readable {files : Files} (lex : Lexicon) (options : RuleOptions) (lists : List RuleList) {path : String}
    (readable : files.Readable path) (r : Repository) :
    readFile (.reading lex false) options lists path r files =
      ((readUnits options lists path (files.unitsAt lex path) r).1,
        (readUnits options lists path (files.unitsAt lex path) r).2,files) := by
  simp [readFile,SemiSource.reading,Files.semisUnless,Files.semis_eq lex readable]

/-- The links that the dependency pass adds for files. -/
def Repository.links (r : Repository) (files : Files) (lex : Lexicon) (options : RuleOptions) (paths : List String) :
    List (String × String) :=
  paths.flatMap fun path => Repository.linksFrom path (r.targets options path (files.unitsAt lex path))

/-- The dependency pass links each file to its targets and leaves types, aliases, declarations and the imports of
other files alone. -/
theorem readReferences_eq (files : Files) (lex : Lexicon) (options : RuleOptions) {paths : List String}
    (distinct : paths.Nodup) (readable : ∀ path ∈ paths, files.Readable path) :
    ∀ {r : Repository}, r.AllClosed → ∃ q,
      readReferences (.reading lex false) options paths r files = (.ok (q,[]),files) ∧
        q.types = r.types ∧ q.aliases = r.aliases ∧ q.locations = r.locations ∧
          q.graph = r.graph.connectAll (r.links files lex options paths) ∧
            ∀ other ∉ paths, q.usingsOf other = r.usingsOf other := by
  induction paths with
  | nil => exact fun {r} _ => ⟨r,rfl,rfl,rfl,rfl,rfl,fun _ _ => rfl⟩
  | cons path paths ih =>
    intro r closed
    rw [List.nodup_cons] at distinct
    have here : ∀ file, ∀ unit ∈ files.unitsAt lex file, unit.path = file :=
      fun file unit member => (files.unitsAt_placed lex file unit member).path
    obtain ⟨next,read,after⟩ := Repository.readUnits_referred options (here path) closed
    obtain ⟨q,rest,types,aliases,locations,graph,usings⟩ := ih distinct.2
      (fun other member => readable other (List.mem_cons_of_mem _ member)) (after.allClosed closed)
    refine ⟨q,?_,types.trans after.types,aliases.trans after.aliases,locations.trans after.locations,?_,?_⟩
    · rw [readReferences,readFile_readable lex options _ (readable path (List.mem_cons_self ..)),read]
      exact rest
    · -- What the first file added is not seen by the others.
      have same : next.links files lex options paths = r.links files lex options paths := by
        refine List.flatMap_congr fun other member => ?_
        rw [Repository.targets_congr options (here other) closed (after.allClosed closed) after.types after.aliases
          (after.usings other fun equal => distinct.1 (equal ▸ member))]
      rw [graph,after.graph,same,← Graph.connectAll_append]
      rfl
    · intro other absent
      rw [List.mem_cons,not_or] at absent
      exact (usings other absent.2).trans (after.usings other absent.1)

end Depends
