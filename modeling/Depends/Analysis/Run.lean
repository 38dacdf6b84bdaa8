import Depends.Analysis.Basic
import Depends.Analysis.Source
import Depends.Rule.Pass

/-!
The two passes. The type pass reads every file into a repository of its own and takes these over in
file order; the dependency pass reads the files that succeeded once more and adds imports and edges.
A file that fails is skipped and reported. Only a cancelled run fails as a whole.
-/
namespace Depends

/-- Offers semi-expressions to rule lists until one fails. The line is that of the last one that went
through. -/
def offerAll (options : RuleOptions) (lists : List RuleList) :
    List Semi → Int → Repository → Option Failure × Int × Repository
  | [], line, r => (none, line, r)
  | unit :: units, line, r =>
    match applyAll options unit lists r with
    | (.ok (), r) => offerAll options lists units unit.line r
    | (.error failure, r) => (some failure, line, r)

/-- Reads the semi-expressions of one file into a repository. Scopes that are open at the end, or where
the file fails, are closed at the last line. -/
def readUnits (options : RuleOptions) (lists : List RuleList) (path : String) (units : List Semi)
    (r : Repository) : Option Failure × Repository :=
  let (failure, line, r) := offerAll options lists units 0 (r.beginFile path)
  (failure.map (·.detail "path" path), r.endFile line)

/-- Reads one file through a source into a repository. In a cancelled run the first semi-expression
ends the file. -/
def readFile {σ : Type} (source : SemiSource σ) (options : RuleOptions) (lists : List RuleList)
    (path : String) (r : Repository) (state : σ) : Option Failure × Repository × σ :=
  match source.semis path state with
  | (.error fault, state) => (some (fault.failure path), (r.beginFile path).endFile 0, state)
  | (.ok units, state) =>
    if source.isCancelled state && !units.isEmpty then
      (some .cancelled, (r.beginFile path).endFile 0, state)
    else
      let (failure, r) := readUnits options lists path units r
      (failure, r, state)

/-- What the type pass found in one file. -/
structure FilePart where
  path : String
  repository : Repository
  failure : Option Failure
  deriving DecidableEq, Repr

/-- Reads the declarations of each file into its own repository. Serials go on from file to file. -/
def readParts {σ : Type} (source : SemiSource σ) (options : RuleOptions) :
    List String → Nat → σ → Except Failure (List FilePart) × σ
  | [], _, state => (.ok [], state)
  | path :: paths, serial, state =>
    let (failure, own, state) :=
      readFile source options [.declaring] path { nextSerial := serial } state
    if failure.isSome && source.isCancelled state then (.error .cancelled, state)
    else
      match readParts source options paths own.nextSerial state with
      | (.error failure, state) => (.error failure, state)
      | (.ok parts, state) => (.ok ({ path, repository := own, failure } :: parts), state)

/-- Reports a file as skipped. -/
def Repository.noteSkipped (r : Repository) (failure : Failure) : Repository :=
  r.note (.fileSkipped failure.isCancelled)

/-- What the type pass has taken over: the repository, the files that succeeded and those skipped. -/
structure TypesRead where
  repository : Repository
  succeeded : List String := []
  skipped : List SkippedFile := []
  deriving DecidableEq, Repr

/-- Takes over one file. A file that was read but is malformed keeps what it declared before the failure
and stays in the graph; any other failing file leaves no trace. -/
def TypesRead.take (found : TypesRead) (part : FilePart) : TypesRead :=
  match part.failure with
  | none =>
    { found with
      repository := ((found.repository.merge part.repository).ensureNode part.path).2
      succeeded := found.succeeded ++ [part.path] }
  | some failure =>
    let r := found.repository.noteSkipped failure
    { found with
      repository :=
        if failure.hasCode .malformed then ((r.merge part.repository).ensureNode part.path).2 else r
      skipped := found.skipped ++ [{ path := part.path, pass := .types, failure }] }

/-- Takes over the parts in file order. -/
def takeParts (r : Repository) (parts : List FilePart) : TypesRead :=
  let journal := r.journal ++ parts.flatMap (·.repository.journal)
  parts.foldl TypesRead.take { repository := { r with journal } }

/-- The dependency pass over files: the repository and the files that failed. -/
def readReferences {σ : Type} (source : SemiSource σ) (options : RuleOptions) :
    List String → Repository → σ → Except Failure (Repository × List SkippedFile) × σ
  | [], r, state => (.ok (r, []), state)
  | path :: paths, r, state =>
    let (failure, r, state) := readFile source options [.tracking, .referring] path r state
    match failure with
    | none => readReferences source options paths r state
    | some failure =>
      if source.isCancelled state then (.error .cancelled, state)
      else
        match readReferences source options paths (r.noteSkipped failure) state with
        | (.error failure, state) => (.error failure, state)
        | (.ok (r, skipped), state) =>
          (.ok (r, { path, pass := .dependencies, failure } :: skipped), state)

/-- Analyzes files into a repository. -/
def Repository.analyze {σ : Type} (r : Repository) (source : SemiSource σ) (options : RuleOptions)
    (paths : List String) (state : σ) : Except Failure Analysis × σ :=
  match readParts source options paths r.nextSerial state with
  | (.error failure, state) => (.error failure, state)
  | (.ok parts, state) =>
    let found := takeParts r parts
    match readReferences source options found.succeeded found.repository state with
    | (.error failure, state) => (.error failure, state)
    | (.ok (r, skipped), state) =>
      (.ok
        { repository := r.note .analysisComplete, files := paths, components := r.graph.components
          skipped := found.skipped ++ skipped },
        state)

/-- Analyzes files into a fresh repository. -/
def analyze {σ : Type} (source : SemiSource σ) (options : RuleOptions) (paths : List String)
    (state : σ) : Except Failure Analysis × σ :=
  ({} : Repository).analyze source options paths state

end Depends
