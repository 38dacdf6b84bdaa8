import Depends.Graph.Basic
import Depends.Text.Fields

/-!
What the diagrams share: identifiers for the files, labels, and the files and edges that lie inside a
cyclic component.
-/
namespace Depends.Report

/-- A name as an identifier: characters that are neither letters nor digits become underscores, and an
identifier does not start with an ASCII digit. -/
def identifier (name : String) : String :=
  if name = "" then "n"
  else
    let chars := name.toList.map fun c => if Text.isLetter c || Text.isDigit c then c else '_'
    if chars.head?.any Char.isDigit then "n_" ++ String.ofList chars else String.ofList chars

/-- Identifiers for names in order. The second and later names with the same identifier get their
number. -/
def identifiers (names : List String) : List String :=
  let bases := names.map identifier
  (List.range bases.length).map fun i =>
    let base := bases.getD i ""
    let before := (bases.take i).count base
    if before = 0 then base else base ++ "_" ++ toString (before + 1)

/-- A text inside double quotes, with single quotes for its own double quotes. -/
def labelText (s : String) : String :=
  String.ofList (s.toList.map fun c => if c = '"' then '\'' else c)

/-- The files of cyclic components, each with the number of its component. -/
structure Highlight where
  nodes : List (Nat × Nat)

namespace Highlight

/-- A list of numbers is cyclic when it has several members, or one with an edge to itself. -/
def isCyclic (g : Graph) (component : List Int) : Bool :=
  2 ≤ component.length ||
    match component with
    | [v] => (g.node? v).any g.hasLoop
    | _ => false

/-- The highlight for given components. A file named by several components belongs to the last one. -/
def ofComponents (g : Graph) (components : List (List Int)) : Highlight :=
  let marked := (List.range components.length).flatMap fun i =>
    let component := components.getD i []
    if isCyclic g component then component.filterMap fun v => (g.node? v).map (·, i) else []
  ⟨marked.reverse⟩

/-- A file of a cyclic component. -/
def node (h : Highlight) (v : Nat) : Bool := (h.nodes.lookup v).isSome

/-- An edge inside a cyclic component. -/
def edge (h : Highlight) (v w : Nat) : Bool :=
  match h.nodes.lookup v, h.nodes.lookup w with
  | some i, some j => i == j
  | _, _ => false

end Highlight

/-- The nodes of a graph with their numbers. -/
def numbered (g : Graph) : List (Nat × GraphNode) := (List.range g.size).zip g.nodes

/-- The edges of a graph in order, as pairs of numbers. -/
def links (g : Graph) : List (Nat × Nat) :=
  (numbered g).flatMap fun (i, node) => node.edges.map fun e => (i, e.target)

/-- The identifiers of the files of a graph. -/
def graphIdentifiers (g : Graph) : List String := identifiers (g.nodes.map (·.name))

/-- The lines of a diagram for the files. -/
def fileLines (g : Graph) (line : Nat → GraphNode → String) : String :=
  Text.join "" ((numbered g).map fun (i, node) => line i node)

/-- The lines of a diagram for the edges. -/
def linkLines (g : Graph) (line : Nat → Nat → String) : String :=
  Text.join "" ((links g).map fun (v, w) => line v w)

/-- The empty line between the files and the edges of a diagram, which one without files lacks. -/
def gap (g : Graph) : String := if g.nodes.isEmpty then "" else "\n"

end Depends.Report
