import Depends.Proofs.Analysis.Declaring
import Depends.Proofs.Analysis.References

/-!
A second run over unchanged files. It finds the same declarations, so the type table stays as it is. The
graph need not: the first run looks references up while it still collects the imports of the file, the
second run has all of them from the start. `rerun_unchanged_iff` says exactly when the graph stays: when
no reference leads further with all imports than with those that stand before it.
-/
namespace Depends

/-! ### The type pass -/

/-- What the type pass finds in a readable file, whatever serial it starts from. -/
structure IsPart (files : Files) (lex : Lexicon) (options : RuleOptions) (file : String) (part : FilePart) : Prop where
  path : part.path = file
  failure : part.failure = none
  repository : ∃ serial, part.repository = Repository.own options file (files.unitsAt lex file) serial

variable {files : Files} {lex : Lexicon} {options : RuleOptions} {paths : List String}

theorem readParts_readable (readable : ∀ path ∈ paths, files.Readable path) :
    ∀ serial, ∃ parts, readParts (.reading lex false) options paths serial files = (.ok parts,files) ∧
      List.Forall₂ (IsPart files lex options) paths parts := by
  induction paths with
  | nil => exact fun _ => ⟨[],rfl,.nil⟩
  | cons path paths ih =>
    intro serial
    have read : readFile (.reading lex false) options [.declaring] path { nextSerial := serial } files =
        (none,Repository.own options path (files.unitsAt lex path) serial,files) := by
      rw [readFile_readable lex options _ (readable path (List.mem_cons_self ..))]
      rw [readUnits_declaring]
      rfl
    obtain ⟨parts,rest,shapes⟩ := ih (fun other member => readable other (List.mem_cons_of_mem _ member))
      (Repository.own options path (files.unitsAt lex path) serial).nextSerial
    refine ⟨⟨path,Repository.own options path (files.unitsAt lex path) serial,none⟩ :: parts,?_,?_⟩
    · rw [readParts,read]
      simp only [Option.isSome_none,Bool.false_and,Bool.false_eq_true,↓reduceIte,rest]
    · exact .cons ⟨rfl,rfl,serial,rfl⟩ shapes

/-- Takes parts over one after the other. -/
def Repository.absorbAll (r : Repository) (parts : List FilePart) : Repository :=
  parts.foldl (fun r part => r.absorb part.repository part.path) r

theorem take_parts {parts : List FilePart} (shapes : List.Forall₂ (IsPart files lex options) paths parts) :
    ∀ found : TypesRead, parts.foldl TypesRead.take found =
      { found with repository := found.repository.absorbAll parts, succeeded := found.succeeded ++ paths } := by
  induction shapes with
  | nil => intro found; simp [Repository.absorbAll]
  | cons shape _ ih =>
    intro found
    rw [List.foldl_cons,ih]
    simp [TypesRead.take,shape.failure,shape.path,Repository.absorbAll,Repository.absorb]

theorem IsPart.tables {path : String} {part : FilePart} (shape : IsPart files lex options path part) :
    part.repository.OwnTables path := by
  obtain ⟨serial,own⟩ := shape.repository
  exact own ▸ Repository.own_tables options serial (files.unitsAt_placed lex path)

theorem IsPart.allClosed {path : String} {part : FilePart} (shape : IsPart files lex options path part) :
    part.repository.AllClosed := by
  obtain ⟨serial,own⟩ := shape.repository
  exact own ▸ Repository.own_allClosed options serial (files.unitsAt_placed lex path)

theorem IsPart.knows {path : String} {part again : FilePart} (shape : IsPart files lex options path part)
    (reading : IsPart files lex options path again) {r : Repository} (knows : r.Knows path part.repository) :
    r.Knows path again.repository := by
  obtain ⟨serial,own⟩ := shape.repository
  obtain ⟨serial',own'⟩ := reading.repository
  obtain ⟨aliases,covers⟩ := Repository.own_alike options path (files.unitsAt lex path) serial serial'
  rw [own] at knows
  rw [own']
  exact knows.alike aliases covers

/-- The repository knows every reading of the files. -/
def Repository.KnowsAll (files : Files) (lex : Lexicon) (options : RuleOptions) (paths : List String)
    (r : Repository) : Prop :=
  ∀ path ∈ paths, ∀ part, IsPart files lex options path part → r.Knows path part.repository

theorem absorbAll_allClosed {parts : List FilePart} (shapes : List.Forall₂ (IsPart files lex options) paths parts) :
    ∀ {r : Repository}, r.AllClosed → (r.absorbAll parts).AllClosed := by
  induction shapes with
  | nil => exact fun closed => closed
  | cons shape _ ih =>
    intro r closed
    simp only [Repository.absorbAll,List.foldl_cons,shape.path]
    exact ih (Repository.absorb_allClosed closed shape.tables shape.allClosed)

/-- Taking parts over adds no import and no edge. -/
theorem absorbAll_unlinked {parts : List FilePart} (shapes : List.Forall₂ (IsPart files lex options) paths parts) :
    ∀ {r : Repository}, r.graph.Closed →
      (r.absorbAll parts).usings = r.usings ∧ (r.absorbAll parts).graph.Closed ∧
        ∀ source target, (r.absorbAll parts).graph.Linked source target ↔ r.graph.Linked source target := by
  induction shapes with
  | nil => exact fun graph => ⟨rfl,graph,fun _ _ => Iff.rfl⟩
  | @cons path part _ _ shape _ ih =>
    intro r graph
    obtain ⟨-,-,usings,grown⟩ := Repository.absorb_tables r shape.tables
    have next : (r.absorb part.repository path).graph.Closed := grown ▸ Graph.closed_addNode graph path
    obtain ⟨same,stays,linked⟩ := ih next
    simp only [Repository.absorbAll,List.foldl_cons,shape.path] at same stays linked ⊢
    refine ⟨same.trans usings,stays,fun source target => ?_⟩
    rw [linked,grown,Graph.linked_addNode graph]

theorem absorbAll_knows {parts : List FilePart} (shapes : List.Forall₂ (IsPart files lex options) paths parts) :
    paths.Nodup → ∀ {r : Repository}, (r.absorbAll parts).KnowsAll files lex options paths ∧
      ∀ path ∉ paths, ∀ o, r.Knows path o → (r.absorbAll parts).Knows path o := by
  induction shapes with
  | nil => exact fun _ {r} => ⟨fun _ member => absurd member List.not_mem_nil,fun _ _ _ knows => knows⟩
  | @cons path part paths parts shape _ ih =>
    intro distinct r
    rw [List.nodup_cons] at distinct
    obtain ⟨later,kept⟩ := ih distinct.2 (r := r.absorb part.repository path)
    simp only [Repository.absorbAll,List.foldl_cons,shape.path] at later kept ⊢
    constructor
    · intro other member again reading
      rcases List.mem_cons.mp member with rfl | inside
      · exact shape.knows reading (kept other distinct.1 _ (Repository.absorb_knows r shape.tables))
      · exact later other inside again reading
    · intro other absent o knows
      rw [List.mem_cons,not_or] at absent
      exact kept other absent.2 o (knows.absorb shape.tables absent.1)

theorem absorbAll_known {parts : List FilePart} (shapes : List.Forall₂ (IsPart files lex options) paths parts) :
    ∀ {r : Repository}, r.KnowsAll files lex options paths →
      ∃ locations nextSerial, r.absorbAll parts = { r with locations, nextSerial } := by
  induction shapes with
  | nil => exact fun {r} _ => ⟨r.locations,r.nextSerial,rfl⟩
  | @cons path part paths parts shape _ ih =>
    intro r known
    have first := Repository.absorb_of_knows shape.tables (known path (List.mem_cons_self ..) part shape)
    have still : (r.absorb part.repository path).KnowsAll files lex options paths := by
      intro other member again reading
      have knows := known other (List.mem_cons_of_mem _ member) again reading
      rw [first]
      exact knows.congr rfl rfl knows.node
    obtain ⟨locations,nextSerial,same⟩ := ih still
    simp only [Repository.absorbAll,List.foldl_cons,shape.path] at same ⊢
    exact ⟨locations,nextSerial,same.trans (by rw [first])⟩

/-! ### Two runs -/

/-- The second repository is the first one after the dependency pass over files. -/
structure Finished (files : Files) (lex : Lexicon) (options : RuleOptions) (paths : List String)
    (m q : Repository) : Prop where
  types : q.types = m.types
  aliases : q.aliases = m.aliases
  locations : q.locations = m.locations
  graph : q.graph = m.graph.connectAll (m.links files lex options paths)

/-- The type pass over readable files takes all of them over. -/
theorem takeParts_readable (files : Files) (lex : Lexicon) (options : RuleOptions)
    (readable : ∀ path ∈ paths, files.Readable path) (r : Repository) :
    ∃ parts journal, List.Forall₂ (IsPart files lex options) paths parts ∧
      readParts (.reading lex false) options paths r.nextSerial files = (.ok parts,files) ∧
        takeParts r parts = { repository := { r with journal }.absorbAll parts, succeeded := paths } := by
  obtain ⟨parts,read,shapes⟩ := readParts_readable readable r.nextSerial
  refine ⟨parts,r.journal ++ parts.flatMap (·.repository.journal),shapes,read,?_⟩
  rw [takeParts,take_parts shapes]
  rfl

theorem analyze_readable (files : Files) (lex : Lexicon) (options : RuleOptions) (distinct : paths.Nodup)
    (readable : ∀ path ∈ paths, files.Readable path) {r : Repository} (closed : r.AllClosed) :
    ∃ parts journal result, List.Forall₂ (IsPart files lex options) paths parts ∧
      r.analyze (.reading lex false) options paths files = (.ok result,files) ∧
        Finished files lex options paths ({ r with journal }.absorbAll parts) result.repository := by
  obtain ⟨parts,journal,shapes,read,taken⟩ := takeParts_readable files lex options readable r
  have ended : ({ r with journal }.absorbAll parts).AllClosed := absorbAll_allClosed shapes closed
  obtain ⟨q,referred,types,aliases,locations,graph,-⟩ := readReferences_eq files lex options distinct readable ended
  refine ⟨parts,journal,
    { repository := q.note .analysisComplete, files := paths, components := q.graph.components, skipped := [] },
    shapes,?_,types,aliases,locations,graph⟩
  unfold Repository.analyze
  rw [read]
  dsimp only
  rw [taken]
  dsimp only
  rw [referred]
  rfl

/-- A first run goes from a repository without imports and links to one that knows all files. -/
theorem analyze_first (files : Files) (lex : Lexicon) (options : RuleOptions) (distinct : paths.Nodup)
    (readable : ∀ path ∈ paths, files.Readable path) :
    ∃ (m : Repository) (first : Analysis), analyze (.reading lex false) options paths files = (.ok first,files) ∧
      Finished files lex options paths m first.repository ∧ m.AllClosed ∧ m.usings = [] ∧ m.graph.Closed ∧
        (∀ source target, ¬ m.graph.Linked source target) ∧ first.repository.KnowsAll files lex options paths := by
  obtain ⟨parts,journal,first,shapes,run,done⟩ := analyze_readable files lex options distinct readable
    (r := {}) (fun d member => absurd member List.not_mem_nil)
  obtain ⟨usings,graph,linked⟩ := absorbAll_unlinked shapes (r := { journal }) Graph.closed_empty
  refine ⟨({ journal } : Repository).absorbAll parts,first,run,done,?_,usings,graph,?_,?_⟩
  · exact absorbAll_allClosed shapes fun d member => absurd member List.not_mem_nil
  · intro source target present
    obtain ⟨i,j,found,-⟩ := (linked source target).mp present
    simp at found
  · intro path member part shape
    have knows := (absorbAll_knows shapes distinct (r := { journal })).1 path member part shape
    refine knows.congr done.types done.aliases ?_
    rw [done.graph]
    exact Graph.find?_connectAll_isSome _ knows.node

/-- A run into a repository that knows all files adds nothing before the dependency pass. -/
theorem analyze_again (files : Files) (lex : Lexicon) (options : RuleOptions) (distinct : paths.Nodup)
    (readable : ∀ path ∈ paths, files.Readable path) {r : Repository} (closed : r.AllClosed)
    (known : r.KnowsAll files lex options paths) :
    ∃ second, r.analyze (.reading lex false) options paths files = (.ok second,files) ∧
      second.repository.types = r.types ∧
        second.graph = r.graph.connectAll (r.links files lex options paths) := by
  obtain ⟨parts,journal,second,shapes,run,done⟩ := analyze_readable files lex options distinct readable closed
  have ended : ({ r with journal }.absorbAll parts).AllClosed := absorbAll_allClosed shapes closed
  obtain ⟨locations,nextSerial,same⟩ := absorbAll_known shapes (r := { r with journal })
    fun path member part shape => (known path member part shape).congr rfl rfl (known path member part shape).node
  rw [same] at done ended
  refine ⟨second,run,done.types,done.graph.trans (congrArg _ ?_)⟩
  refine List.flatMap_congr fun path _ => ?_
  rw [Repository.targets_congr options (fun unit member => (files.unitsAt_placed lex path unit member).path)
    closed ended rfl rfl rfl]

theorem mem_links {r : Repository} {source target : String} :
    (source,target) ∈ r.links files lex options paths ↔
      source ∈ paths ∧ target ∈ r.targets options source (files.unitsAt lex source) := by
  simp only [Repository.links,Repository.linksFrom,List.mem_flatMap,List.mem_map,Prod.mk.injEq]
  constructor
  · rintro ⟨path,member,file,listed,rfl,rfl⟩
    exact ⟨member,listed⟩
  · rintro ⟨member,listed⟩
    exact ⟨source,member,target,listed,rfl,rfl⟩

/-- A second run over the same readable files leaves the type table as it is. It leaves the graph as it is
exactly when no file has a reference that leads to a further file once all imports of the file are known,
those included that stand after the reference. -/
theorem rerun_unchanged_iff (files : Files) (lex : Lexicon) (options : RuleOptions) {paths : List String}
    (distinct : paths.Nodup) (readable : ∀ path ∈ paths, files.Readable path) :
    ∃ first second, analyze (.reading lex false) options paths files = (.ok first,files) ∧
      first.repository.analyze (.reading lex false) options paths files = (.ok second,files) ∧
        second.repository.types = first.repository.types ∧
          (second.graph = first.graph ↔ ∀ path ∈ paths,
            first.repository.targets options path (files.unitsAt lex path) ⊆
              { first.repository with usings := [] }.targets options path (files.unitsAt lex path)) := by
  obtain ⟨m,first,firstRun,done,closed,usings,graph,unlinked,known⟩ :=
    analyze_first files lex options distinct readable
  have firstClosed : first.repository.AllClosed := by
    intro d member
    rw [done.locations] at member
    exact closed d member
  obtain ⟨second,secondRun,types,linked⟩ := analyze_again files lex options distinct readable firstClosed known
  refine ⟨first,second,firstRun,secondRun,types,?_⟩
  -- Before the dependency pass nothing is imported, so the first run has the targets without imports.
  have early : ∀ path, m.targets options path (files.unitsAt lex path) =
      { first.repository with usings := [] }.targets options path (files.unitsAt lex path) := by
    intro path
    refine Repository.targets_congr options (fun unit member => (files.unitsAt_placed lex path unit member).path)
      firstClosed closed done.types.symm done.aliases.symm ?_
    simp [Repository.usingsOf,usings]
  have edges : ∀ source target, first.repository.graph.Linked source target ↔
      source ∈ paths ∧ target ∈ m.targets options source (files.unitsAt lex source) := by
    intro source target
    rw [done.graph,Graph.linked_connectAll graph,mem_links]
    exact or_iff_right (unlinked source target)
  have firstGraph : first.repository.graph.Closed := done.graph ▸ Graph.connectAll_closed graph _
  rw [linked]
  refine (Graph.connectAll_eq_self_iff firstGraph _).trans ⟨?_,?_⟩
  · intro present path member target further
    rw [← early]
    exact ((edges path target).mp (present (path,target) (mem_links.mpr ⟨member,further⟩))).2
  · rintro inside ⟨source,target⟩ listed
    obtain ⟨member,further⟩ := mem_links.mp listed
    refine (edges source target).mpr ⟨member,?_⟩
    rw [early]
    exact inside source member further

/-- Two files in the working directory. -/
def twoFiles (first second : String) : Files :=
  { root := .folder
      [("a.cs",.file { content := .bytes first.toUTF8.toList, modified := 0 }),
        ("b.cs",.file { content := .bytes second.toUTF8.toList, modified := 0 })]
    directory := [] }

theorem twoFiles_readable (first second : String) :
    ∀ path ∈ ["a.cs","b.cs"], (twoFiles first second).Readable path := by
  intro path member
  simp only [List.mem_cons,List.not_mem_nil,or_false] at member
  rcases member with rfl | rfl
  · exact ⟨_,rfl⟩
  · exact ⟨_,rfl⟩

/-- A reference after the import that it needs. -/
def importFirst : Files := twoFiles "namespace N \x7b class Foo \x7b \x7d \x7d" "using N; class B \x7b Foo f; \x7d"

/-- A reference before the import that it needs. -/
def importLast : Files := twoFiles "namespace N \x7b class Foo \x7b \x7d \x7d" "class B \x7b Foo f; \x7d using N;"

/-- The graphs of a run over two files and of a second run. -/
def graphsOfRuns (files : Files) : Option (Graph × Graph) :=
  match (analyze (.reading .standard false) .standard ["a.cs","b.cs"] files).1 with
  | .error _ => none
  | .ok first =>
    match (first.repository.analyze (.reading .standard false) .standard ["a.cs","b.cs"] files).1 with
    | .error _ => none
    | .ok second => some (first.graph,second.graph)

set_option maxRecDepth 100000 in
/-- With the import first the second run changes nothing, and no reference leads further. -/
theorem rerun_import_first :
    ∃ first second,
      analyze (.reading .standard false) .standard ["a.cs","b.cs"] importFirst = (.ok first,importFirst) ∧
        first.repository.analyze (.reading .standard false) .standard ["a.cs","b.cs"] importFirst =
          (.ok second,importFirst) ∧
        second.repository.types = first.repository.types ∧ second.graph = first.graph ∧
          ∀ path ∈ ["a.cs","b.cs"], first.repository.targets .standard path (importFirst.unitsAt .standard path) ⊆
            { first.repository with usings := [] }.targets .standard path (importFirst.unitsAt .standard path) := by
  obtain ⟨first,second,run,again,types,unchanged⟩ :=
    rerun_unchanged_iff importFirst .standard .standard (by decide) (twoFiles_readable _ _)
  have graphs : (graphsOfRuns importFirst).any (fun graphs => graphs.2 = graphs.1) = true := by decide +kernel
  simp only [graphsOfRuns,run,again,Option.any_some,decide_eq_true_eq] at graphs
  exact ⟨first,second,run,again,types,graphs,unchanged.mp graphs⟩

set_option maxRecDepth 100000 in
/-- With the import last the second run adds the edge that the first one missed. -/
theorem rerun_import_last :
    ∃ first second,
      analyze (.reading .standard false) .standard ["a.cs","b.cs"] importLast = (.ok first,importLast) ∧
        first.repository.analyze (.reading .standard false) .standard ["a.cs","b.cs"] importLast =
          (.ok second,importLast) ∧
        first.graph.edgeCount = 0 ∧ second.graph.edgeCount = 1 := by
  have distinct : ["a.cs","b.cs"].Nodup := by decide
  obtain ⟨m,first,run,done,closed,-,-,-,known⟩ :=
    analyze_first importLast .standard .standard distinct (twoFiles_readable _ _)
  obtain ⟨second,again,-⟩ := analyze_again importLast .standard .standard distinct (twoFiles_readable _ _)
    (fun d member => closed d (done.locations ▸ member)) known
  have graphs : (graphsOfRuns importLast).any (fun graphs => graphs.1.edgeCount = 0 ∧ graphs.2.edgeCount = 1) = true := by
    decide +kernel
  simp only [graphsOfRuns,run,again,Option.any_some,decide_eq_true_eq] at graphs
  exact ⟨first,second,run,again,graphs⟩

end Depends
