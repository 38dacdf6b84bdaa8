import Depends.Graph.Impact

/-!
Plain listings: what each file depends on, the components, a chain, and the impact of a file.
-/
namespace Depends.Report

/-- What a file depends on. -/
def dependencyLine (node : GraphNode) : String :=
  if node.edges.isEmpty then node.name ++ " doesn't depend on any packages."
  else node.name ++ " depends on: " ++ Text.join " " (node.edges.map (·.label))

/-- One line per file. -/
def dependencies (g : Graph) : String :=
  Text.join "" (g.nodes.map fun node => dependencyLine node ++ "\n")

/-- One line per component. -/
def componentLines (g : Graph) (components : List (List Int)) : String :=
  Text.join "" (components.map fun c => "- [" ++ Text.join ", " (g.names c) ++ "]\n")

/-- The files of a chain by their base names. -/
def chainLine (chain : List String) : String := Text.join " -> " (chain.map Path.base) ++ "\n"

/-- A titled list of paths with their number. -/
def impactSection (title : String) (paths : List String) : String :=
  "  " ++ title ++ " (" ++ toString paths.length ++ "):\n" ++
    Text.join "" (paths.map fun p => "    " ++ p ++ "\n")

/-- The files that depend on a file. -/
def impactText (impact : Impact) : String :=
  "Impact of " ++ Path.base impact.target ++ "\n" ++ impactSection "direct" impact.direct ++
    impactSection "transitive" impact.transitive

end Depends.Report
