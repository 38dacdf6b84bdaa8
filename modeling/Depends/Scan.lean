import Depends.Filter

/-!
The files to analyze: those that a filter takes, in or below the given roots.
-/
namespace Depends.Files

variable {matcher : Type} [Matcher matcher]

/-- What a scan of one root looks at: all that a walk meets, or the files directly in a folder. -/
def looked (filter : FileFilter matcher) (recursive : Bool) (root : String) (tree : Tree) : List Visit :=
  if recursive || !tree.isFolder then tree.walkFrom filter.skipsFolder root
  else (Text.sorted (tree.ownFiles root)).map fun path => ⟨path, false⟩

/-- The files among the visits that a filter takes. -/
def taken (filter : FileFilter matcher) (visits : List Visit) : List String :=
  ((visits.filter (!·.isFolder)).map (·.path)).filter filter.takesFile

/-- The files under one root, which is an absolute path. The root itself is never skipped. -/
def scanRoot (files : Files) (filter : FileFilter matcher) (recursive : Bool) (root : String) :
    Except Failure (List String) :=
  match files.stat root with
  | .error refusal =>
    .error (((Failure.file "stat" root refusal).wrap .notFound "scan path").detail "path" root)
  | .ok tree => .ok (taken filter (looked filter recursive root tree))

/-- The files under several roots, without repetitions, as absolute paths. -/
def scan (files : Files) (filter : FileFilter matcher) (recursive : Bool) (roots : List String) :
    Except Failure (List String) := do
  let found ← roots.mapM fun root =>
    files.scanRoot filter recursive (Path.absolute files.workingDirectory root)
  return Text.dedupe found.flatten

end Depends.Files
