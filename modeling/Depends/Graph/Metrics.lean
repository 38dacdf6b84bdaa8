import Depends.Graph.Components
import Depends.Number
import Depends.Text.Fields

/-!
Where each file stands in the graph: how many files it depends on and how many depend on it, how deep
the files below it go, whether it lies on a cycle, and a score from these.
-/
namespace Depends

/-- The position of a file. `component` is the number of its strong component. -/
structure FileMetrics where
  path : String
  name : String
  fanIn : Int
  fanOut : Int
  depth : Int
  inCycle : Bool
  component : Nat := 0
  importance : Rat
  deriving DecidableEq, Repr

/-- How much leans on a file: two for each file that depends on it, one for each file it depends on, half
for each level below it and ten for a cycle, every step with 53 significant bits. -/
def importanceScore (fanIn fanOut depth : Int) (inCycle : Bool) : Rat :=
  let score := Number.nearest (Number.nearest (Number.wrap64 (fanIn * 2)) + Number.nearest fanOut)
  let score := Number.nearest (score + Number.nearest depth / 2)
  if inCycle then Number.nearest (score + 10) else score

/-- The order of the rows: the higher score first, then the path. -/
def FileMetrics.precedes (a b : FileMetrics) : Bool :=
  if a.importance = b.importance then a.path ≤ b.path else b.importance < a.importance

namespace Graph

/-- The number of the component that holds a node. -/
def componentOf (components : List (List Nat)) (v : Nat) : Nat :=
  components.findIdx (·.contains v)

/-- The depth of a component above components that already have one: one more than the deepest
component that an edge leads to. -/
def componentDepth (g : Graph) (components : List (List Nat)) (depths : List Nat) (component : List Nat) :
    Nat :=
  let below := component.flatMap fun v =>
    (g.successors v).filterMap fun w =>
      let other := componentOf components w
      if other = componentOf components v then none else some (depths.getD other 0 + 1)
  below.foldl max 0

/-- The depth of every component. An edge between components leads to an earlier one. -/
def componentDepths (g : Graph) (components : List (List Nat)) : List Nat :=
  components.foldl (fun depths component => depths ++ [g.componentDepth components depths component]) []

/-- The number of edges to a node. -/
def fanIn (g : Graph) (v : Nat) : Nat :=
  Number.total (g.nodes.map fun node => node.edges.countP (·.target == v))

/-- The position of every file, by score and path. -/
def metrics (g : Graph) : List FileMetrics :=
  let components := g.components
  let depths := g.componentDepths components
  let rows := (List.range g.size).map fun v =>
    let component := componentOf components v
    let fanIn : Int := g.fanIn v
    let fanOut : Int := (g.edges v).length
    let depth : Int := depths.getD component 0
    let inCycle := 1 < (components.getD component []).length || g.hasLoop v
    { path := (g.nodes[v]?.map (·.path)).getD "", name := (g.nodes[v]?.map (·.name)).getD ""
      fanIn, fanOut, depth, inCycle, component
      importance := importanceScore fanIn fanOut depth inCycle : FileMetrics }
  rows.mergeSort FileMetrics.precedes

end Graph

end Depends
