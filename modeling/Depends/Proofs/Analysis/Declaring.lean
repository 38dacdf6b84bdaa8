import Depends.Analysis.Run
import Depends.Proofs.Repository.Continuing

/-!
The type pass reads every file into a repository of its own and takes these over in file order. Files with
different paths do not get into each other's way, so the pass finds what reading all files one after the other
into one repository finds: the same type table, the same declarations in the same order and the same aliases
(`apart_eq_together`).
-/
namespace Depends

/-- Rules that fail on no semi-expression go through all of them, one step each. -/
theorem offerAll_steps {options : RuleOptions} {lists : List RuleList} {step : Semi → Repository → Repository}
    (applied : ∀ unit r, applyAll options unit lists r = (.ok (),step unit r)) (units : List Semi) :
    ∀ (line : Int) (r : Repository), offerAll options lists units line r =
      (none,(units.getLast?.map (·.line)).getD line,units.foldl (fun r unit => step unit r) r) := by
  induction units with
  | nil => intro line r; rfl
  | cons unit units ih =>
    intro line r
    rw [offerAll,applied]
    dsimp only
    rw [ih,List.getLast?_cons]
    cases units.getLast? <;> rfl

theorem offerAll_declaring (options : RuleOptions) (units : List Semi) (line : Int) (r : Repository) :
    offerAll options [.declaring] units line r =
      (none,(units.getLast?.map (·.line)).getD line,r.declared options units) :=
  offerAll_steps (applyAll_declaring options) units line r

/-- The repository when rules have seen some semi-expressions of a file. -/
def Repository.upTo (options : RuleOptions) (lists : List RuleList) (path : String) (units : List Semi)
    (r : Repository) : Repository :=
  (offerAll options lists units 0 (r.beginFile path)).2.2

theorem upTo_declaring (options : RuleOptions) (path : String) (units : List Semi) (r : Repository) :
    r.upTo options [.declaring] path units = (r.beginFile path).declared options units := by
  rw [Repository.upTo,offerAll_declaring]

/-- The declarations of a file are read to its end. -/
theorem readUnits_declaring (options : RuleOptions) (path : String) (units : List Semi) (r : Repository) :
    readUnits options [.declaring] path units r =
      (none,((r.beginFile path).declared options units).endFile ((units.getLast?.map (·.line)).getD 0)) := by
  simp only [readUnits,offerAll_declaring,Option.map_none]

/-- A source that has the semi-expressions of given files. -/
def SemiSource.given (files : List (String × List Semi)) : SemiSource Unit where
  semis path _ := (.ok ((files.lookup path).getD []),())
  isCancelled _ := false

variable {options : RuleOptions}

/-- What the type pass finds in files that are all given, when serials go on from a given one. -/
def ownParts (options : RuleOptions) : List (String × List Semi) → Nat → List FilePart
  | [], _ => []
  | (path,units) :: files, serial =>
    ⟨path,Repository.own options path units serial,none⟩ ::
      ownParts options files (Repository.own options path units serial).nextSerial

theorem readParts_given {given files : List (String × List Semi)}
    (found : ∀ file ∈ files, given.lookup file.1 = some file.2) :
    ∀ serial, readParts (.given given) options (files.map (·.1)) serial () = (.ok (ownParts options files serial),()) := by
  induction files with
  | nil => exact fun serial => rfl
  | cons file files ih =>
    intro serial
    rw [List.forall_mem_cons] at found
    have read : readFile (.given given) options [.declaring] file.1 { nextSerial := serial } () =
        (none,Repository.own options file.1 file.2 serial,()) := by
      simp only [readFile,SemiSource.given,found.1,Option.getD_some,Bool.false_and,Bool.false_eq_true,↓reduceIte,
        readUnits_declaring]
      rfl
    rw [List.map_cons,readParts,read]
    simp only [Option.isSome_none,Bool.false_and,Bool.false_eq_true,↓reduceIte,ih found.2]
    rfl

/-- Taking over what files declare keeps step with reading them into one repository. -/
theorem merge_ownParts {files : List (String × List Semi)} (distinct : (files.map (·.1)).Nodup)
    (placed : ∀ file ∈ files, ∀ unit ∈ file.2, unit.path = file.1) :
    ∀ {paths : List String} {merged shared : Repository}, shared.Within paths →
      (∀ file ∈ files, file.1 ∉ paths) → merged.types = shared.types → merged.locations = shared.locations →
        merged.aliases = shared.aliases →
          let apart := (ownParts options files shared.nextSerial).foldl (fun r part => r.merge part.repository) merged
          let together := files.foldl (fun r file => (readUnits options [.declaring] file.1 file.2 r).2) shared
          apart.types = together.types ∧ apart.locations = together.locations ∧ apart.aliases = together.aliases := by
  induction files with
  | nil => exact fun _ _ types locations aliases => ⟨types,locations,aliases⟩
  | cons file files ih =>
    intro paths merged shared within new types locations aliases
    rw [List.map_cons,List.nodup_cons] at distinct
    rw [List.forall_mem_cons] at placed new
    obtain ⟨path,units⟩ := file
    have read := ((Repository.Continues.begin path shared).declared options within new.1 placed.1).endFile within new.1
      ((units.getLast?.map (·.line)).getD 0)
    have inside : (((shared.beginFile path).declared options units).endFile
        ((units.getLast?.map (·.line)).getD 0)).Within (path :: paths) := by
      have started : (shared.beginFile path).Within (path :: paths) :=
        ⟨fun d member => List.mem_cons_of_mem _ (within.files d member),within.numbered,within.listed,
          fun file member => List.mem_cons_of_mem _ (within.aliases file member)⟩
      refine (Repository.Within.stable _).endFile (started.declared options fun unit member => ?_) _
      rw [placed.1 unit member]
      exact List.mem_cons_self ..
    obtain ⟨types',locations',aliases'⟩ := read.merged within new.1 types locations aliases
    -- The induction goes on with the files read so far as those that the shared repository is within.
    have rest := ih distinct.2 placed.2 inside (fun other member => ?_) types' locations' aliases'
    · rw [read.nextSerial] at rest
      simp only [ownParts,List.foldl_cons,readUnits_declaring] at rest ⊢
      exact rest
    · rw [List.mem_cons,not_or]
      exact ⟨fun same => distinct.1 (List.mem_map.mpr ⟨other,member,same⟩),new.2 other member⟩

/-- For every list of files with different paths, each with any semi-expressions of its path: the type pass, which
reads each file into a fresh repository, succeeds on every file, and taking these repositories over in file order
into an empty one gives the type table, the declarations and the aliases that reading all files one after the other
into one repository gives. -/
theorem apart_eq_together (options : RuleOptions) (files : List (String × List Semi))
    (distinct : (files.map (·.1)).Nodup) (placed : ∀ file ∈ files, ∀ unit ∈ file.2, unit.path = file.1) :
    ∃ parts, readParts (.given files) options (files.map (·.1)) 0 () = (.ok parts,()) ∧
      parts.map (·.path) = files.map (·.1) ∧ (∀ part ∈ parts, part.failure = none) ∧
        let apart := parts.foldl (fun r part => r.merge part.repository) ({} : Repository)
        let together := files.foldl (fun r file => (readUnits options [.declaring] file.1 file.2 r).2) {}
        apart.types = together.types ∧ apart.locations = together.locations ∧ apart.aliases = together.aliases := by
  have shapes : ∀ (files : List (String × List Semi)) (serial : Nat),
      (ownParts options files serial).map (·.path) = files.map (·.1) ∧
        ∀ part ∈ ownParts options files serial, part.failure = none := by
    intro files
    induction files with
    | nil => exact fun serial => ⟨rfl,fun part member => absurd member List.not_mem_nil⟩
    | cons file files ih =>
      intro serial
      obtain ⟨paths,none⟩ := ih (Repository.own options file.1 file.2 serial).nextSerial
      refine ⟨congrArg (file.1 :: ·) paths,fun part member => ?_⟩
      rcases List.mem_cons.mp member with rfl | later
      · rfl
      · exact none part later
  have empty : ({} : Repository).Within [] := by
    refine ⟨?_,?_,?_,?_⟩
    · exact fun d member => absurd member List.not_mem_nil
    · exact fun d member => absurd member List.not_mem_nil
    · exact fun p member => absurd member List.not_mem_nil
    · exact fun file member => absurd member List.not_mem_nil
  refine ⟨ownParts options files 0,readParts_given (lookup_of_mem distinct) 0,(shapes files 0).1,(shapes files 0).2,?_⟩
  exact merge_ownParts distinct placed empty (fun file _ => List.not_mem_nil) rfl rfl rfl

/-- Two files that declare the same types, with a body declared twice, an alias bound twice and scopes that are
left open. -/
def overlappingFiles : List (String × List Semi) :=
  [("a.cs",
      [⟨["using","X","=","N",";"],"a.cs",1,1⟩,⟨["class","Foo",openBrace],"a.cs",2,2⟩,
        ⟨["delegate","void","D","(",")",";"],"a.cs",3,3⟩,⟨[closeBrace],"a.cs",4,4⟩,
        ⟨["class","Foo",openBrace],"a.cs",5,5⟩,⟨["using","X","=","M",";"],"a.cs",6,6⟩]),
    ("b.cs",
      [⟨["namespace","N",";"],"b.cs",1,1⟩,⟨["delegate","void","D","(",")",";"],"b.cs",2,2⟩,
        ⟨["class","Foo",openBrace],"b.cs",3,3⟩,⟨["using","X","=","K",";"],"b.cs",4,4⟩])]

theorem apart_eq_together_overlapping :
    (overlappingFiles.map (·.1)).Nodup ∧ (∀ file ∈ overlappingFiles, ∀ unit ∈ file.2, unit.path = file.1) ∧
      ∃ parts, readParts (.given overlappingFiles) .standard (overlappingFiles.map (·.1)) 0 () = (.ok parts,()) ∧
        parts.map (·.path) = overlappingFiles.map (·.1) ∧ (∀ part ∈ parts, part.failure = none) ∧
          let apart := parts.foldl (fun r part => r.merge part.repository) ({} : Repository)
          let together := overlappingFiles.foldl (fun r file => (readUnits .standard [.declaring] file.1 file.2 r).2) {}
          apart.types = together.types ∧ apart.locations = together.locations ∧ apart.aliases = together.aliases :=
  have distinct : (overlappingFiles.map (·.1)).Nodup := by decide
  have placed : ∀ file ∈ overlappingFiles, ∀ unit ∈ file.2, unit.path = file.1 := by decide
  ⟨distinct,placed,apart_eq_together .standard overlappingFiles distinct placed⟩

end Depends
