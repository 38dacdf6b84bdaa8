import Depends.Proofs.Analysis.Journal
import Depends.Proofs.Analysis.Rerun
import Mathlib.Data.List.Nodup

/-!
A run through what a source answers. In a run that is not called off the type pass takes over the files that were given
and reports the others, and the dependency pass reads the given ones again (`analyze_answers`). So a file that is never
given leaves a report and a note, and nothing else: the run without it ends in the same repository
(`failures_isolated`).
-/
namespace Depends

variable {σ : Type} {source : SemiSource σ} {options : RuleOptions} {state : σ}

/-- What a source says to a request. -/
abbrev Reading := Except ReadFault (List Semi)

/-- Requests with their answers. -/
abbrev Answers := List (String × Reading)

namespace Answers

/-- The files that were given. -/
def given (answers : Answers) : List (String × List Semi) :=
  answers.filterMap fun answer => answer.2.toOption.map (answer.1,·)

/-- The files that were not given, as the type pass reports them. -/
def refused (answers : Answers) : List SkippedFile :=
  answers.filterMap fun
    | (_,.ok _) => none
    | (path,.error fault) => some { path, pass := .types, failure := fault.failure path }

@[simp] theorem given_ok (path : String) (units : List Semi) (answers : Answers) :
    given ((path,.ok units) :: answers) = (path,units) :: given answers := rfl

@[simp] theorem given_error (path : String) (fault : ReadFault) (answers : Answers) :
    given ((path,.error fault) :: answers) = given answers := rfl

@[simp] theorem refused_ok (path : String) (units : List Semi) (answers : Answers) :
    refused ((path,.ok units) :: answers) = refused answers := rfl

@[simp] theorem refused_error (path : String) (fault : ReadFault) (answers : Answers) :
    refused ((path,.error fault) :: answers) = ⟨path,.types,fault.failure path⟩ :: refused answers := rfl

/-- What the type pass makes of the answers. -/
def parts (options : RuleOptions) : Answers → Nat → List FilePart
  | [], _ => []
  | (path,.ok units) :: answers, serial =>
    ⟨path,Repository.own options path units serial,none⟩ ::
      parts options answers (Repository.own options path units serial).nextSerial
  | (path,.error fault) :: answers, serial =>
    ⟨path,(({ nextSerial := serial } : Repository).beginFile path).endFile 0,some (fault.failure path)⟩ ::
      parts options answers serial

/-- No file is reported as malformed. -/
def Benign (answers : Answers) : Prop :=
  ∀ path fault, (path,.error fault) ∈ answers → (fault.failure path).hasCode .malformed = false

/-- Taking over the parts takes over the given files and reports the others. -/
theorem take_parts {answers : Answers} : answers.Benign → ∀ (serial : Nat) (found : TypesRead) {q : Repository},
    found.repository.Agrees q → ∃ r, r.Agrees (q.absorbAll (ownParts options answers.given serial)) ∧
      (answers.parts options serial).foldl TypesRead.take found =
        { repository := r, succeeded := found.succeeded ++ answers.given.map (·.1)
          skipped := found.skipped ++ answers.refused } := by
  induction answers with
  | nil =>
    intro _ serial found q agrees
    exact ⟨found.repository,agrees,by simp [parts,given,refused]⟩
  | cons answer answers ih =>
    intro benign serial found q agrees
    have later : Benign answers := fun path fault member => benign path fault (List.mem_cons_of_mem _ member)
    obtain ⟨path,fault | units⟩ := answer
    · -- The failure is noted and the repository is otherwise left alone.
      have harmless := benign path fault (List.mem_cons_self ..)
      have noted : (found.repository.noteSkipped (fault.failure path)).Agrees q :=
        (Repository.agrees_note _ _).symm.trans agrees
      obtain ⟨r,after,taken⟩ := ih later serial
        { found with
          repository := found.repository.noteSkipped (fault.failure path)
          skipped := found.skipped ++ [⟨path,.types,fault.failure path⟩] } noted
      refine ⟨r,after,?_⟩
      rw [parts,List.foldl_cons]
      simp only [TypesRead.take,harmless,Bool.false_eq_true,↓reduceIte,taken]
      simp
    · have absorbed := Repository.deaf_absorb (Repository.own options path units serial) path _ _ agrees
      obtain ⟨r,after,taken⟩ := ih later (Repository.own options path units serial).nextSerial
        { found with
          repository := found.repository.absorb (Repository.own options path units serial) path
          succeeded := found.succeeded ++ [path] } absorbed
      refine ⟨r,after,?_⟩
      rw [parts,List.foldl_cons]
      refine Eq.trans taken ?_
      simp

theorem takeParts_eq {answers : Answers} (benign : answers.Benign) (options : RuleOptions) (r : Repository) (serial : Nat) :
    ∃ q, q.Agrees (r.absorbAll (ownParts options answers.given serial)) ∧
      takeParts r (answers.parts options serial) =
        { repository := q, succeeded := answers.given.map (·.1), skipped := answers.refused } := by
  have journaled : ∀ journal, ({ r with journal } : Repository).Agrees r := fun _ => rfl
  obtain ⟨q,agrees,taken⟩ := take_parts benign serial { repository := { r with journal := _ } } (journaled _)
  exact ⟨q,agrees,taken⟩

end Answers

/-! ### Requests -/

/-- The answers of a source to one request after the other. -/
def SemiSource.answers (source : SemiSource σ) : List String → σ → Answers
  | [], _ => []
  | path :: paths, state => (path,(source.semis path state).1) :: source.answers paths (source.semis path state).2

/-- The run is not called off, whatever the source is asked for. -/
def SemiSource.Running (source : SemiSource σ) (state : σ) : Prop :=
  ∀ asked, source.isCancelled (source.after asked state) = false

theorem SemiSource.Running.after (running : source.Running state) (first : List String) :
    source.Running (source.after first state) := by
  intro asked
  rw [← SemiSource.after_append]
  exact running (first ++ asked)

/-- While the run goes on, reading a file goes through what was given. -/
theorem readFile_answer (running : source.Running state) (options : RuleOptions) (lists : List RuleList)
    (path : String) (r : Repository) :
    readFile source options lists path r state =
      match (source.semis path state).1 with
      | .error fault => (some (fault.failure path),(r.beginFile path).endFile 0,source.after [path] state)
      | .ok units =>
        ((readUnits options lists path units r).1,(readUnits options lists path units r).2,source.after [path] state) := by
  have on : source.isCancelled (source.semis path state).2 = false := running [path]
  simp only [readFile,SemiSource.after,List.foldl_cons,List.foldl_nil]
  revert on
  rcases source.semis path state with ⟨fault | units,next⟩
  · intro _
    rfl
  · intro on
    simp [on]

theorem readParts_answers (paths : List String) : ∀ {state : σ}, source.Running state → ∀ serial,
    readParts source options paths serial state =
      (.ok ((source.answers paths state).parts options serial),source.after paths state) := by
  induction paths with
  | nil => exact fun _ serial => rfl
  | cons path paths ih =>
    intro state running serial
    have on : source.isCancelled (source.after [path] state) = false := running [path]
    have rest := ih (running.after [path])
    rw [readParts,readFile_answer running]
    simp only [SemiSource.answers]
    cases (source.semis path state).1 with
    | error fault =>
      simp only [on,Bool.and_false,Bool.false_eq_true,↓reduceIte,rest]
      rfl
    | ok units =>
      simp only [readUnits_declaring,Option.isSome_none,Bool.false_and,Bool.false_eq_true,↓reduceIte,rest]
      rfl

/-- The dependency pass over given files. -/
def Repository.referAll (options : RuleOptions) (files : List (String × List Semi)) (r : Repository) : Repository :=
  files.foldl (fun r file => (readUnits options [.tracking,.referring] file.1 file.2 r).2) r

theorem Repository.deaf_referAll (options : RuleOptions) (files : List (String × List Semi)) :
    Deaf (referAll options files) := by
  have each : ∀ file : String × List Semi,
      Deaf ((fun file r => (readUnits options [.tracking,.referring] file.1 file.2 r).2) file) :=
    fun file => deaf_readUnits options file.1 file.2
  exact Deaf.foldl each files

theorem readReferences_answers (paths : List String) : ∀ {state : σ}, source.Running state →
    (∀ answer ∈ source.answers paths state, answer.2.isOk) → ∀ r,
      readReferences source options paths r state =
        (.ok (r.referAll options (source.answers paths state).given,[]),source.after paths state) := by
  induction paths with
  | nil => exact fun _ _ r => rfl
  | cons path paths ih =>
    intro state running all r
    rw [SemiSource.answers,List.forall_mem_cons] at all
    have rest := ih (running.after [path]) all.2
    rw [readReferences,readFile_answer running]
    simp only [SemiSource.answers]
    cases answered : (source.semis path state).1 with
    | error fault =>
      rw [answered] at all
      cases all.1
    | ok units =>
      simp only [readUnits_referring,rest,Answers.given_ok,Repository.referAll,List.foldl_cons]
      rfl

/-- A run that is not called off, in which no file is malformed and no file that was given once is refused later. -/
theorem analyze_answers (running : source.Running state) (options : RuleOptions) (paths : List String) (r : Repository)
    (benign : (source.answers paths state).Benign)
    (again : ∀ answer ∈ source.answers ((source.answers paths state).given.map (·.1)) (source.after paths state),
      answer.2.isOk) :
    ∃ a, r.analyze source options paths state =
        (.ok a,source.after (source.answers paths state |>.given.map (·.1)) (source.after paths state)) ∧
      a.skipped = (source.answers paths state).refused ∧ a.components = a.graph.components ∧
        a.repository.Agrees ((r.absorbAll (ownParts options (source.answers paths state).given r.nextSerial)).referAll
          options (source.answers ((source.answers paths state).given.map (·.1)) (source.after paths state)).given) := by
  obtain ⟨q,agrees,taken⟩ := Answers.takeParts_eq benign options r r.nextSerial
  unfold Repository.analyze
  rw [readParts_answers paths running]
  simp only [taken,readReferences_answers _ (running.after paths) again]
  refine ⟨_,rfl,List.append_nil _,rfl,?_⟩
  exact (Repository.agrees_note _ _).symm.trans (Repository.deaf_referAll options _ _ _ agrees)

/-! ### Files that always fail -/

/-- What a source says about a file depends on how often it was asked for it, and on no other file. -/
def SemiSource.Steady (source : SemiSource σ) (state : σ) (reads : String → Nat → Reading) : Prop :=
  ∀ asked path, (source.semis path (source.after asked state)).1 = reads path (asked.count path)

theorem SemiSource.Steady.answers {reads : String → Nat → Reading} (steady : source.Steady state reads) {n : Nat}
    {paths : List String} (distinct : paths.Nodup) :
    ∀ asked : List String, (∀ path ∈ paths, asked.count path = n) →
      source.answers paths (source.after asked state) = paths.map fun path => (path,reads path n) := by
  induction paths with
  | nil => exact fun _ _ => rfl
  | cons path paths ih =>
    intro asked counted
    rw [List.nodup_cons] at distinct
    rw [List.forall_mem_cons] at counted
    have next : source.after (asked ++ [path]) state = (source.semis path (source.after asked state)).2 :=
      SemiSource.after_append source asked [path] state
    -- The request counts for its own path only, so the induction goes on with one request more.
    have rest := ih distinct.2 (asked ++ [path]) fun other member => by
      have different : path ≠ other := fun same => distinct.1 (same ▸ member)
      simp [different,counted.2 other member]
    rw [SemiSource.answers,steady,counted.1,← next,rest]
    rfl

theorem after_reading (lex : Lexicon) (cancelled : Bool) (asked : List String) (files : Files) :
    (SemiSource.reading lex cancelled).after asked files = files := by
  induction asked with
  | nil => rfl
  | cons path asked ih => exact ih

theorem reading_running (lex : Lexicon) (files : Files) : (SemiSource.reading lex false).Running files :=
  fun _ => rfl

/-- Files that are read afresh each time do not change in between. -/
theorem reading_steady (lex : Lexicon) (files : Files) :
    (SemiSource.reading lex false).Steady files fun path _ => files.semisUnless false lex path := by
  intro asked path
  rw [after_reading]
  rfl

section

variable {reads : String → Nat → Reading} {paths : List String}

/-- A file is always given, or always refused with a failure that is no malformed construct. -/
def Decided (reads : String → Nat → Reading) (path : String) : Prop :=
  (∀ n, ∃ units, reads path n = .ok units) ∨
    ∀ n, ∃ fault, reads path n = .error fault ∧ (fault.failure path).hasCode .malformed = false

/-- What is said about files at one reading of each. -/
def readings (reads : String → Nat → Reading) (paths : List String) (n : Nat) : Answers :=
  paths.map fun path => (path,reads path n)

theorem readings_paths (reads : String → Nat → Reading) (paths : List String) (n : Nat) :
    (readings reads paths n).given.map (·.1) = paths.filter fun path => (reads path n).isOk := by
  rw [Answers.given,readings,List.filterMap_map,List.map_filterMap,← List.filterMap_eq_filter]
  refine List.filterMap_congr fun path _ => ?_
  cases answer : reads path n <;> simp [answer,Option.guard,Except.toOption,Except.isOk,Except.toBool]

/-- Leaving out what is not given leaves what is given. -/
theorem readings_given (reads : String → Nat → Reading) (paths : List String) (n : Nat) :
    (readings reads (paths.filter fun path => (reads path n).isOk) n).given = (readings reads paths n).given := by
  simp only [readings,Answers.given,List.filterMap_map,List.filterMap_filter]
  refine List.filterMap_congr fun path _ => ?_
  cases answer : reads path n <;> simp [answer,Except.isOk,Except.toBool,Except.toOption]

theorem readings_refused (reads : String → Nat → Reading) (paths : List String) (n : Nat) :
    (readings reads paths n).refused.map (·.path) = (paths.filter fun path => !(reads path n).isOk) := by
  rw [Answers.refused,readings,List.filterMap_map,List.map_filterMap,← List.filterMap_eq_filter]
  refine List.filterMap_congr fun path _ => ?_
  cases answer : reads path n <;> simp [answer,Option.guard,Except.isOk,Except.toBool]

theorem mem_readings_refused {s : SkippedFile} {n : Nat} (member : s ∈ (readings reads paths n).refused) :
    s.pass = .types ∧ ∃ fault, reads s.path n = .error fault ∧ s.failure = fault.failure s.path := by
  obtain ⟨⟨path,answer⟩,listed,reported⟩ := List.mem_filterMap.mp member
  obtain ⟨other,-,same⟩ := List.mem_map.mp listed
  obtain ⟨rfl,read⟩ := Prod.mk.inj same
  cases answer with
  | ok units => cases reported
  | error fault =>
    obtain rfl := Option.some.inj reported
    exact ⟨rfl,fault,read,rfl⟩

/-- A run over different files, each of which is decided. -/
theorem analyze_decided (running : source.Running state) (steady : source.Steady state reads) (distinct : paths.Nodup)
    (decided : ∀ path ∈ paths, Decided reads path) (options : RuleOptions) (r : Repository) :
    ∃ a final, r.analyze source options paths state = (.ok a,final) ∧
      a.skipped = (readings reads paths 0).refused ∧ a.components = a.graph.components ∧
        a.repository.Agrees ((r.absorbAll (ownParts options (readings reads paths 0).given r.nextSerial)).referAll options
          (readings reads (paths.filter fun path => (reads path 0).isOk) 1).given) := by
  have first : source.answers paths state = readings reads paths 0 :=
    steady.answers distinct [] fun path _ => List.count_nil
  have given := readings_paths reads paths 0
  have second : source.answers (paths.filter fun path => (reads path 0).isOk) (source.after paths state) =
      readings reads (paths.filter fun path => (reads path 0).isOk) 1 :=
    steady.answers (distinct.filter _) paths fun path member =>
      List.count_eq_one_of_mem distinct (List.mem_of_mem_filter member)
  have benign : (source.answers paths state).Benign := by
    intro path fault member
    rw [first] at member
    obtain ⟨other,listed,same⟩ := List.mem_map.mp member
    obtain ⟨rfl,read⟩ := Prod.mk.inj same
    rcases decided other listed with always | never
    · obtain ⟨units,read'⟩ := always 0
      rw [read] at read'
      cases read'
    · obtain ⟨fault',read',harmless⟩ := never 0
      rw [read] at read'
      cases read'
      exact harmless
  have again : ∀ answer ∈ source.answers ((source.answers paths state).given.map (·.1)) (source.after paths state),
      answer.2.isOk := by
    rw [first,given,second]
    intro answer member
    obtain ⟨path,listed,rfl⟩ := List.mem_map.mp member
    obtain ⟨inside,ok⟩ := List.mem_filter.mp listed
    rcases decided path inside with always | never
    · obtain ⟨units,read⟩ := always 1
      simp [read,Except.isOk,Except.toBool]
    · obtain ⟨fault,read,-⟩ := never 0
      simp [read,Except.isOk,Except.toBool] at ok
  obtain ⟨a,run,done⟩ := analyze_answers running options paths r benign again
  rw [first,given,second] at done
  exact ⟨a,_,run,done⟩

end

/-- Over a source that is not called off and that says about a file what depends on no other file, for each of the
different files either always its semi-expressions or always a failure that is no malformed construct: the run succeeds
and so does the run over the files that are given. The files that are not given are reported, in their order, in the type
pass and with their failures. All else is the same in both runs, the journal of notes apart: types, declarations,
aliases, imports, nodes, edges and components. -/
theorem failures_isolated {σ : Type} (source : SemiSource σ) (state : σ) (running : source.Running state)
    (reads : String → Nat → Reading) (steady : source.Steady state reads) (options : RuleOptions) (r : Repository)
    {paths : List String} (distinct : paths.Nodup) (decided : ∀ path ∈ paths, Decided reads path) :
    ∃ a b final final', r.analyze source options paths state = (.ok a,final) ∧
      r.analyze source options (paths.filter fun path => (reads path 0).isOk) state = (.ok b,final') ∧
        (a.skipped.map (·.path) = paths.filter fun path => !(reads path 0).isOk) ∧
          (∀ s ∈ a.skipped, s.pass = .types ∧ ∃ fault, reads s.path 0 = .error fault ∧ s.failure = fault.failure s.path) ∧
            b.skipped = [] ∧ a.repository = { b.repository with journal := a.repository.journal } ∧
              a.components = b.components := by
  obtain ⟨a,final,run,reported,components,left⟩ := analyze_decided running steady distinct decided options r
  obtain ⟨b,final',run',reported',components',right⟩ := analyze_decided running steady (distinct.filter _)
    (fun path member => decided path (List.mem_of_mem_filter member)) options r
  rw [readings_given,List.filter_filter] at right
  simp only [Bool.and_self] at right
  have same := (right.trans left.symm).journal
  refine ⟨a,b,final,final',run,run',?_,?_,?_,same,?_⟩
  · rw [reported,readings_refused]
  · rw [reported]
    exact fun s member => mem_readings_refused member
  · rw [reported',← List.map_eq_nil_iff (f := fun s : SkippedFile => s.path),readings_refused]
    simp
  · rw [components,components',Analysis.graph,same]
    rfl

/-- A missing file between two files that refer to each other. -/
def besideMissing : Files := twoFiles "class Foo \x7b Bar b; \x7d" "class Bar \x7b Foo f; \x7d"

/-- The first run links the two files and reports the missing one. -/
theorem missing_isolated :
    ∃ a b final final',
      analyze (.reading .standard false) .standard ["a.cs","c.cs","b.cs"] besideMissing = (.ok a,final) ∧
        analyze (.reading .standard false) .standard ["a.cs","b.cs"] besideMissing = (.ok b,final') ∧
          a.skipped.map (·.path) = ["c.cs"] ∧ b.skipped = [] ∧
            a.repository = { b.repository with journal := a.repository.journal } ∧ a.components = b.components := by
  have decided : ∀ path ∈ ["a.cs","c.cs","b.cs"],
      Decided (fun path _ => besideMissing.semisUnless false .standard path) path := by
    simp only [List.forall_mem_cons]
    refine ⟨.inl fun _ => ⟨_,rfl⟩,.inr fun _ => ⟨_,rfl,rfl⟩,.inl fun _ => ⟨_,rfl⟩,?_⟩
    exact fun path member => absurd member List.not_mem_nil
  obtain ⟨a,b,final,final',run,run',reported,-,none,same,components⟩ := failures_isolated _ _
    (reading_running .standard besideMissing) _ (reading_steady .standard besideMissing) .standard {} (by decide) decided
  exact ⟨a,b,final,final',run,run',reported,none,same,components⟩

end Depends
