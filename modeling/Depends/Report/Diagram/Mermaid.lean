import Depends.Report.Diagram

/-!
The graph as a Mermaid flowchart. Links are styled by their position among all links.
-/
namespace Depends.Report

/-- The fixed head of the flowchart. -/
def mermaidHead : String :=
  "%%\x7binit: \x7b'theme': 'base', 'flowchart': \x7b'nodeSpacing': 60, 'rankSpacing': 90, " ++
  "'curve': 'basis'\x7d\x7d\x7d%%\n" ++
  "flowchart LR\n" ++
  "  classDef file fill:#EFF6FF,stroke:#3B82F6,color:#000000\n" ++
  "  classDef cycle fill:#FEE2E2,stroke:#DC2626,color:#000000,stroke-width:2px\n"

/-- The positions of the links inside cyclic components. -/
def cycleLinks (g : Graph) (h : Highlight) : List Nat :=
  let all := links g
  (List.range all.length).filter fun n => (all[n]?).any fun (v, w) => h.edge v w

/-- The line of a file, which has another class when it is marked. -/
def mermaidFile (id : String) (marked : Bool) (node : GraphNode) : String :=
  "  " ++ id ++ "[\"" ++ labelText node.name ++ "\"]:::" ++ (if marked then "cycle" else "file") ++ "\n"

/-- The line that gives the links at some positions their style, if there are any. -/
def linkStyle (positions : List Nat) : String :=
  if positions.isEmpty then ""
  else "  linkStyle " ++ Text.join "," (positions.map toString) ++ " stroke:#DC2626,stroke-width:2px\n"

/-- The flowchart in which the given files and the links at the given positions are marked. -/
def mermaidDrawing (g : Graph) (file : Nat → Bool) (positions : List Nat) : String :=
  let ids := graphIdentifiers g
  let id (i : Nat) := ids.getD i ""
  mermaidHead ++ fileLines g (fun i node => mermaidFile (id i) (file i) node) ++
    linkLines g (fun v w => "  " ++ id v ++ " --> " ++ id w ++ "\n") ++ linkStyle positions

/-- The graph as a flowchart. -/
def mermaid (g : Graph) (components : List (List Int)) : String :=
  let h := Highlight.ofComponents g components
  mermaidDrawing g h.node (cycleLinks g h)

end Depends.Report
