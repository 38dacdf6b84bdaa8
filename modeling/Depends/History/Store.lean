import Depends.Files.Tree
import Depends.History.Address
import Depends.History.Snapshot

/-!
The history of runs in a database file. An open store works on the ledger that it found; a closed one
refuses to save and to load.
-/
namespace Depends

/-- A database that was opened with a path. -/
structure Store where
  path : String
  address : Address
  ledger : Ledger
  isOpen : Bool := true
  deriving DecidableEq, Repr

namespace Store

/-- The refusal of a closed database. -/
def closedFailure (action : String) : Failure :=
  (Failure.plain "sql: database is closed").remark action

/-- The refusal of a database that cannot be used. -/
def unusable : Failure := .plain "unusable database"

/-- The path of the file that an address names. -/
def fileOf (files : Files) (address : Address) : String :=
  Path.absolute files.workingDirectory address.name

/-- The ledger at an address. A missing file that may be made and an empty file hold an empty one, and
other bytes hold none. -/
def findLedger (files : Files) (address : Address) : Except Failure Ledger :=
  if address.name == "" then .ok {}
  else
    match files.opened (fileOf files address) with
    | .ok (.file { content := .database ledger, .. }) => .ok ledger
    | .ok (.file { content := .bytes [], .. }) => .ok {}
    | .error .missing => if address.access == .create then .ok {} else .error unusable
    | _ => .error unusable

/-- The files after a database was opened, which may have needed changes that its access allows. -/
def settled (files : Files) (address : Address) (found ledger : Ledger) : Except Failure Files :=
  if address.name == "" then .ok files
  else if address.access == .read then if found == ledger then .ok files else .error unusable
  else
    match files.write (fileOf files address) { content := .database ledger, modified := 0 } with
    | .ok files => .ok files
    | .error _ => .error unusable

/-- Brings a ledger to the supported schema. -/
def checkSchema (path : String) (ledger : Ledger) : Except Failure Ledger :=
  match ledger.upgrade with
  | .ok ledger => .ok ledger
  | .error version =>
    .error ((Failure.plain ("schema version " ++ toString version ++ " is newer than supported version " ++
      toString Ledger.supported)).remark ("initialize sqlite schema " ++ Text.quoted path))

/-- Makes the folders around a database. -/
def makeRoom (files : Files) (path : String) : Except Failure Files :=
  let folder := Path.parent path
  if folder == "." then .ok files
  else
    match files.makeFolders folder with
    | .ok files => .ok files
    | .error failure => .error (failure.remark ("create history directory " ++ Text.quoted folder))

/-- Opens the database at a path, which is made if there is none. Blanks around the path do not count. -/
def openAt (files : Files) (path : String) : Except Failure (Store × Files) := do
  let path := Text.trim path
  if path == "" then throw (.ofCode .validation "history path must not be empty")
  if files.isFolder path then
    throw (.ofCode .validation ("history path " ++ Text.quoted path ++ " is a directory, expected file"))
  let files ← makeRoom files path
  let some address := Address.ofPath? path | throw unusable
  let found ← findLedger files address
  let ledger ← checkSchema path found
  let files ← settled files address found ledger
  return ({ path, address, ledger }, files)

/-- The store after it was closed. -/
def close (store : Store) : Store := { store with isOpen := false }

/-- Saves a snapshot with what was left out filled in, and returns it. -/
def save (store : Store) (occasion : Occasion) (snapshot : Snapshot) :
    Except Failure (Snapshot × Store) :=
  let snapshot := snapshot.completed occasion
  if snapshot.schemaVersion ≠ Ledger.supported then
    .error (.ofCode .validation
      ("unsupported snapshot schema version " ++ toString snapshot.schemaVersion))
  else if !store.isOpen then .error (closedFailure "save snapshot")
  else if store.address.access == .read then
    .error ((Failure.plain "attempt to write a readonly database (8)").remark "save snapshot")
  else .ok (snapshot, { store with ledger := store.ledger.put snapshot.row })

/-- The snapshots of a project from a time on, oldest first; no time gives all of them. -/
def load (store : Store) (projectKey : String) (since : Stamp) : Except Failure (List Snapshot) :=
  if store.isOpen then
    (store.ledger.select (projectName projectKey)
      (if since.isZero then none else some since.utc.text)).mapM Snapshot.ofRow
  else .error (closedFailure "load snapshots")

/-- The newest snapshot of a project. -/
def latest (store : Store) (projectKey : String) : Except Failure Snapshot := do
  let found ← store.load projectKey Stamp.zero
  match found.getLast? with
  | some snapshot => return snapshot
  | none => throw ((Failure.ofCode .notFound "no snapshots recorded").detail "project_key" projectKey)

/-- The files with the ledger in its place. Nothing is written when the database is gone. -/
def written (store : Store) (files : Files) : Files :=
  let file := fileOf files store.address
  match files.stat file with
  | .ok (.file { content := .database _, modified }) =>
    files.place file { content := .database store.ledger, modified }
  | _ => files

end Store

end Depends
