import Depends.Filter
import Depends.Notice

/-!
Watching for changes. Events name a path and what happened to it; paths of interest are kept until the
next batch is delivered.
-/
namespace Depends

/-- What happened to a path. -/
inductive Change where
  | create
  | write
  | remove
  | rename
  | attributes
  deriving DecidableEq, Repr

/-- The change with a label. -/
def Change.ofLabel? : String → Option Change
  | "create" => some .create
  | "write" => some .write
  | "remove" => some .remove
  | "rename" => some .rename
  | "chmod" => some .attributes
  | _ => none

/-- The change touches the content of a file. -/
def Change.touches : Change → Bool
  | .attributes => false
  | _ => true

/-- A watcher with the paths it listens to and those that wait for delivery. -/
structure Watcher (matcher : Type := Glob) where
  filter : FileFilter matcher
  recursive : Bool
  watched : List String := []
  pending : List String := []

namespace Watcher

variable {matcher : Type} [Matcher matcher]

/-- Listens to a path, which the system may refuse. -/
def listen (w : Watcher matcher) (files : Files) (path : String) : Except Failure (Watcher matcher) :=
  match files.watchRefusal path with
  | some failure => .error failure
  | none =>
    let path := Path.clean path
    .ok (if w.watched.contains path then w else { w with watched := w.watched ++ [path] })

/-- Listens to one path after the other, up to the first that the system refuses. -/
def listenAll (files : Files) : List String → Watcher matcher → Option Failure × Watcher matcher
  | [], w => (none, w)
  | path :: paths, w =>
    match w.listen files path with
    | .error failure => (some failure, w)
    | .ok w => listenAll files paths w

/-- Listens to a root; a recursive watcher listens to all folders below that are not passed over. What it
listens to when it fails, it goes on listening to. -/
def add (w : Watcher matcher) (files : Files) (root : String) : Option Failure × Watcher matcher :=
  if w.recursive then
    match files.visits w.filter.skipsFolder root with
    | .error failure => (some failure, w)
    | .ok visits => listenAll files ((visits.filter (·.isFolder)).map (·.path)) w
  else
    match files.stat root with
    | .error refusal => (some (.plain refusal.message), w)
    | .ok _ => listenAll files [root] w

/-- Keeps a path for delivery. -/
def schedule (w : Watcher matcher) (path : String) : Watcher matcher :=
  if w.pending.contains path then w else { w with pending := w.pending ++ [path] }

/-- Keeps every file below a path that takes part, whatever folder it is in. -/
def scheduleBelow (w : Watcher matcher) (files : Files) (root : String) : Watcher matcher :=
  match files.visits (fun _ => false) root with
  | .error _ => w
  | .ok visits =>
    ((visits.filter fun v => !v.isFolder && w.filter.takesFile v.path).map (·.path)).foldl schedule w

/-- The event tells of a new folder to listen to. -/
def meetsFolder (w : Watcher matcher) (files : Files) (path : String) (changes : List Change) : Bool :=
  changes.contains .create && w.recursive && files.isFolder path

/-- Reacts to an event. A new folder is listened to and its files are kept; otherwise a file that takes
part is kept when its content was touched. -/
def react (w : Watcher matcher) (files : Files) (path : String) (changes : List Change) : Watcher matcher :=
  if w.meetsFolder files path changes then
    if w.filter.skipsFolder path then w
    else
      match w.add files path with
      | (some _, w) => w
      | (none, w) => w.scheduleBelow files path
  else if w.filter.takesFile path && changes.any Change.touches then w.schedule path
  else w

/-- The batch to deliver, in ascending order, and the watcher after its delivery. Nothing is delivered
when nothing waits. -/
def flush (w : Watcher matcher) : Option (List String) × Watcher matcher :=
  if w.pending.isEmpty then (none, w) else (some (Text.sorted w.pending), { w with pending := [] })

end Watcher

/-- Batches that came in while a run was under way, as one batch without repetitions. -/
def mergeBatches (first : List String) (more : List (List String)) : List String :=
  Text.dedupe (first ++ more.flatten)

end Depends
