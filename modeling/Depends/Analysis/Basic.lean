import Depends.Graph.Components
import Depends.Repository.Basic

/-!
What an analysis run leaves behind: the repository, the strong components of its graph, and the files
that were skipped with the pass in which it happened.
-/
namespace Depends

/-- The two passes over the files. -/
inductive Pass where
  | types
  | dependencies
  deriving DecidableEq, Repr

/-- The label of a pass. -/
def Pass.label : Pass → String
  | .types => "types"
  | .dependencies => "dependencies"

/-- A file that was skipped in one pass. -/
structure SkippedFile where
  path : String
  pass : Pass
  failure : Failure
  deriving DecidableEq, Repr

/-- The result of a run. The duration is in nanoseconds. -/
structure Analysis where
  repository : Repository
  files : List String
  components : List (List Nat)
  skipped : List SkippedFile
  duration : Int := 0
  deriving DecidableEq, Repr

namespace Analysis

/-- The graph of the files. -/
def graph (a : Analysis) : Graph := a.repository.graph

/-- The components with more than one member. -/
def cyclic (a : Analysis) : List (List Nat) := a.components.filter (1 < ·.length)

/-- The components as lists of indices. -/
def indices (a : Analysis) : List (List Int) := a.components.map fun members => members.map Int.ofNat

end Analysis

end Depends
