import Depends.Repository.Basic

/-!
Named repositories side by side. A merge shares declarations, so an end that is filled in through one
repository shows in every repository that knows the declaration.
-/
namespace Depends

/-- Repositories by name, with the serial of the next new declaration. -/
structure Workspace where
  repositories : List (String × Repository) := []
  nextSerial : Nat := 0

namespace Workspace

/-- The repository with a name, which is empty when it is new. -/
def get (w : Workspace) (name : String) : Repository :=
  { (w.repositories.lookup name).getD {} with nextSerial := w.nextSerial }

/-- The copy of a declaration that another repository has. -/
def refreshed (acted : Repository) (d : Declaration) : Declaration :=
  (acted.locations.find? (·.serial == d.serial)).getD d

/-- The repository with its declarations as another repository knows them. -/
def refresh (acted r : Repository) : Repository :=
  { r with locations := r.locations.map (refreshed acted), types := r.types.map (refreshed acted) }

/-- Stores a repository after it acted; the other ones follow its declarations. -/
def set (w : Workspace) (name : String) (acted : Repository) : Workspace :=
  let others := w.repositories.map fun pair => (pair.1, refresh acted pair.2)
  { repositories := upsert name (fun _ => acted) others
    nextSerial := max w.nextSerial acted.nextSerial }

end Workspace

end Depends
