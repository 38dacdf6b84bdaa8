import Depends.Files.Tree

/-!
Walks over folders: every entry in ascending order of names, a folder before its entries.
-/
namespace Depends

/-- A step of a walk. -/
structure Visit where
  path : String
  isFolder : Bool
  deriving DecidableEq, Repr

namespace Tree

mutual

/-- The walk from something at a path. Folders below that are to be skipped are left out with all they
hold. -/
def walkFrom (skips : String → Bool) (path : String) : Tree → List Visit
  | file _ => [⟨path, false⟩]
  | folder entries => ⟨path, true⟩ :: walkEntries skips path entries

/-- The walk over the entries of a folder. -/
def walkEntries (skips : String → Bool) (path : String) : List (String × Tree) → List Visit
  | [] => []
  | (name, tree) :: entries =>
    let below := Path.append path name
    (if tree.isFolder && skips below then [] else walkFrom skips below tree) ++
      walkEntries skips path entries

end

/-- The files directly in a folder. -/
def ownFiles (path : String) : Tree → List String
  | file _ => []
  | folder entries => (entries.filter (!·.2.isFolder)).map (Path.append path ·.1)

end Tree

/-- The walk from a path. -/
def Files.visits (files : Files) (skips : String → Bool) (path : String) : Except Failure (List Visit) :=
  match files.stat path with
  | .error refusal => .error (.file "lstat" path refusal)
  | .ok tree => .ok (tree.walkFrom skips path)

end Depends
