import Depends.Glob.Compile
import Depends.Scan
import Depends.Watch

/-!
Filters of globs. A glob may give no answer for a name, and a program that asks it then comes to an end.
So a program looks for such a path before it scans, listens or reacts. Where there is none, the filter says
what its globs say.
-/
namespace Depends

namespace FileFilter

/-- Compiles the globs of a filter; one that cannot be compiled spoils the filter. -/
def compile? (pattern : String) (texts folders files : List String) : Option FileFilter := do
  let pattern ← Glob.compile? pattern
  let folders ← folders.mapM Glob.compile?
  let files ← files.mapM Glob.compile?
  return { pattern, excludedTexts := texts, excludedFolders := folders, excludedFiles := files }

/-- Whether the folder at a path is passed over, if the globs give an answer. -/
def skips? (filter : FileFilter) (path : String) : Option Bool :=
  filter.excludedFolders.anyM (·.accepts? (Path.base path))

/-- Whether the file at a path takes part, if the globs give an answer. -/
def takes? (filter : FileFilter) (path : String) : Option Bool := do
  let name := Path.base path
  let fits ← [Text.lower name, name].anyM filter.pattern.accepts?
  if !fits || Text.containsAny path filter.excludedTexts then return false
  return !(← filter.excludedFiles.anyM (·.accepts? name))

private theorem any_of_anyM {α : Type} {test : α → Option Bool} {items : List α} {answer : Bool}
    (answered : items.anyM test = some answer) : items.any (fun item => (test item).getD false) = answer := by
  induction items with
  | nil => simpa using answered
  | cons item items ih =>
    rw [List.anyM_cons] at answered
    cases first : test item with
    | none => simp [first] at answered
    | some one =>
      rw [first] at answered
      cases one with
      | true => simpa [first] using answered
      | false => simpa [first] using ih (by simpa using answered)

theorem skipsFolder_of_skips? {filter : FileFilter} {path : String} {answer : Bool}
    (answered : filter.skips? path = some answer) : filter.skipsFolder path = answer :=
  any_of_anyM answered

theorem takesFile_of_takes? {filter : FileFilter} {path : String} {answer : Bool}
    (answered : filter.takes? path = some answer) : filter.takesFile path = answer := by
  simp only [takes?, Option.bind_eq_bind, Option.bind_eq_some_iff] at answered
  obtain ⟨fits, pattern, rest⟩ := answered
  have matched : [Text.lower (Path.base path), Path.base path].any (Matcher.accepts filter.pattern) = fits :=
    any_of_anyM pattern
  rw [takesFile, matched]
  split at rest
  · rename_i out
    cases rest
    cases fits <;> simp_all
  · rename_i stays
    simp only [Option.bind_eq_some_iff] at rest
    obtain ⟨excluded, files, same⟩ := rest
    have found : filter.excludedFiles.any (Matcher.accepts · (Path.base path)) = excluded := any_of_anyM files
    cases same
    simp_all

/-- The first path of a walk from a root that a filter is asked about and gives no answer for. -/
def unanswered? (filter : FileFilter) (root : String) (visits : List Visit) : Option String :=
  (visits.find? fun v =>
    if v.isFolder then v.path != root && (filter.skips? v.path).isNone
    else (filter.takes? v.path).isNone).map (·.path)

end FileFilter

/-- The first path that a scan of roots asks a filter about and that has no answer. The scan ends at a root
that does not exist. -/
def Files.unanswered? (files : Files) (filter : FileFilter) (recursive : Bool) : List String → Option String
  | [] => none
  | root :: roots =>
    let root := Path.absolute files.workingDirectory root
    match files.stat root with
    | .error _ => none
    | .ok tree =>
      (filter.unanswered? root (looked filter recursive root tree)).or (files.unanswered? filter recursive roots)

namespace Watcher

/-- A path that the filter has no answer for when a watcher comes to listen to a root. -/
def unansweredBelow? (w : Watcher) (files : Files) (root : String) : Option String :=
  if w.recursive then
    let folders := ((files.visits w.filter.skipsFolder root).toOption.getD []).filter (·.isFolder)
    w.filter.unanswered? root folders
  else none

/-- Listens to a root, unless the filter has no answer there. -/
def addRoot (w : Watcher) (files : Files) (root : String) : Except Failure Watcher :=
  match w.unansweredBelow? files root, w.add files root with
  | some path, _ => .error (.unanswered path)
  | none, (some failure, _) => .error failure
  | none, (none, w) => .ok w

/-- A path that the filter has no answer for when a watcher reacts to an event. -/
def unanswered? (w : Watcher) (files : Files) (path : String) (changes : List Change) : Option String :=
  if w.meetsFolder files path changes then
    if w.filter.skipsFolder path then none
    else if (w.filter.skips? path).isNone then some path
    else
      let all := ((files.visits (fun _ => false) path).toOption.getD []).filter (!·.isFolder)
      (w.unansweredBelow? files path).or (w.filter.unanswered? path all)
  else if (w.filter.takes? path).isNone then some path
  else none

end Watcher

end Depends
