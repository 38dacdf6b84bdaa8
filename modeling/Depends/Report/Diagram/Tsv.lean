import Depends.Graph.Metrics
import Depends.Report.Diagram

/-!
Tab-separated lines: one per edge, or one per file with its position in the graph.
-/
namespace Depends.Report

/-- A line of fields. -/
def tsvLine (cells : List String) : String := Text.join "\t" cells ++ "\n"

/-- A truth value as text. -/
def truth (b : Bool) : String := if b then "true" else "false"

/-- The line of an edge, whose last field says whether it is marked. -/
def tsvEdge (g : Graph) (marked : Bool) (node : GraphNode) (e : Edge) : String :=
  let target := (g.nodes[e.target]?).getD { path := "" }
  tsvLine [node.name, target.name, e.label, node.path, target.path, truth marked]

/-- The table in which the given edges are marked. -/
def tsvTable (g : Graph) (edge : Nat → Nat → Bool) : String :=
  tsvLine ["From", "To", "Label", "FromPath", "ToPath", "InCycle"] ++
    Text.join "" ((numbered g).flatMap fun (i, node) => node.edges.map fun e => tsvEdge g (edge i e.target) node e)

/-- One line per edge. -/
def tsv (g : Graph) (components : List (List Int)) : String :=
  tsvTable g (Highlight.ofComponents g components).edge

/-- One line per file. -/
def tsvMetrics (rows : List FileMetrics) : String :=
  tsvLine ["File", "Path", "FanIn", "FanOut", "Depth", "InCycle", "Importance"] ++
    Text.join "" (rows.map fun m =>
      tsvLine [m.name, m.path, toString m.fanIn, toString m.fanOut, toString m.depth, truth m.inCycle,
        Number.twoPlaces m.importance])

end Depends.Report
