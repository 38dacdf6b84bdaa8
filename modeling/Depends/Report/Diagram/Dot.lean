import Depends.Report.Diagram
import Depends.Text.Quoted

/-!
The graph as a DOT digraph, with cyclic components in red.
-/
namespace Depends.Report

/-- The fixed head of the digraph. -/
def dotHead : String :=
  "digraph dependencies \x7b\n  rankdir=LR;\n" ++
  "  node [shape=box, style=rounded, fontname=\"Helvetica\", fontsize=10];\n" ++
  "  edge [fontname=\"Helvetica\", fontsize=8, penwidth=1.2];\n" ++
  "  splines=polyline;\n  overlap=false;\n\n"

/-- The line of a file, in red when it is marked. -/
def dotFile (id : String) (marked : Bool) (node : GraphNode) : String :=
  let color := if marked then ", color=\"#DC2626\", fontcolor=\"#DC2626\", penwidth=2" else ""
  "  " ++ Text.quoted id ++ " [label=\"" ++ labelText node.name ++ "\", tooltip=\"" ++ labelText node.path ++
    "\"" ++ color ++ "];\n"

/-- The line of an edge, in red when it is marked. -/
def dotLink (source target : String) (marked : Bool) : String :=
  let color := if marked then " [color=\"#DC2626\", penwidth=2.2]" else ""
  "  " ++ Text.quoted source ++ " -> " ++ Text.quoted target ++ color ++ ";\n"

/-- The digraph in which the given files and edges are marked. -/
def dotDrawing (g : Graph) (file : Nat → Bool) (edge : Nat → Nat → Bool) : String :=
  let ids := graphIdentifiers g
  let id (i : Nat) := ids.getD i ""
  dotHead ++ fileLines g (fun i node => dotFile (id i) (file i) node) ++ gap g ++
    linkLines g (fun v w => dotLink (id v) (id w) (edge v w)) ++ "\x7d\n"

/-- The graph as a digraph. -/
def dot (g : Graph) (components : List (List Int)) : String :=
  let h := Highlight.ofComponents g components
  dotDrawing g h.node h.edge

end Depends.Report
