import Depends.Report.Diagram

/-!
The graph as a PlantUML component diagram.
-/
namespace Depends.Report

/-- The fixed head of the diagram. -/
def plantUmlHead : String :=
  "@startuml\nleft to right direction\nskinparam componentStyle rectangle\nskinparam shadowing false\n\n"

/-- The line of a file, with a stereotype and a color when it is marked. -/
def plantUmlFile (id : String) (marked : Bool) (node : GraphNode) : String :=
  "component \"" ++ labelText node.name ++ "\" as " ++ id ++ (if marked then " <<cycle>> #FEE2E2" else "") ++ "\n"

/-- The line of an edge, with a red arrow when it is marked. -/
def plantUmlLink (source target : String) (marked : Bool) : String :=
  source ++ (if marked then " -[#DC2626,bold]-> " else " --> ") ++ target ++ "\n"

/-- The component diagram in which the given files and edges are marked. -/
def plantUmlDrawing (g : Graph) (file : Nat → Bool) (edge : Nat → Nat → Bool) : String :=
  let ids := graphIdentifiers g
  let id (i : Nat) := ids.getD i ""
  plantUmlHead ++ fileLines g (fun i node => plantUmlFile (id i) (file i) node) ++ gap g ++
    linkLines g (fun v w => plantUmlLink (id v) (id w) (edge v w)) ++ "@enduml\n"

/-- The graph as a component diagram. -/
def plantUml (g : Graph) (components : List (List Int)) : String :=
  let h := Highlight.ofComponents g components
  plantUmlDrawing g h.node h.edge

end Depends.Report
