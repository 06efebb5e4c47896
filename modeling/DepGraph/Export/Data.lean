/-
  DepGraph — graphs and surveys as plain text and as JSON.

  * `plainText`: one line `a -> b` for each edge.
  * `Diagram.toJson`: the dependencies, the edges, the containment tree (a leaf
    is null) and its edges.
  * `jsonText`, `scriptText`, `surveyText`: these as texts.
-/
import DepGraph.Diagram
import DepGraph.Json.Writer
import DepGraph.Survey.Json

namespace DepGraph

open DepGraph.Text

/-- The edges of a graph, one a line. -/
def plainText (d : Diagram) : String := join "\n" (d.edges.map fun e => e.1 ++ " -> " ++ e.2)

/-- Edges as pairs of names. -/
def edgesToJson (edges : List Edge) : Json := .array (edges.map fun e => .ofStrings [e.1, e.2])

/-- The members of a level of a containment tree. -/
def containmentMembers : Containment → List (String × Json)
  | .nil => []
  | .leaf name rest => (name, .null) :: containmentMembers rest
  | .inner name below rest =>
    (name, .object (containmentMembers below)) :: containmentMembers rest

/-- A graph without the survey that it was made from. -/
def Diagram.toJson (d : Diagram) : Json :=
  .object [("dependencies", dependenciesToJson d.dependencies),
    ("flatDependencies", edgesToJson d.edges),
    ("contains", .object (containmentMembers d.contains)),
    ("flatContains", edgesToJson d.containsEdges)]

/-- How exported JSON is written: indented, and in ASCII. -/
def exportStyle : Json.Style := ⟨.indented 4, true⟩

/-- A graph as JSON. -/
def jsonText (d : Diagram) : String := d.toJson.render exportStyle

/-- A graph as a script that defines it. -/
def scriptText (d : Diagram) : String := "const data = " ++ jsonText d ++ ";"

/-- The survey that a graph was made from. -/
def surveyText (d : Diagram) : String := d.survey.toJson.render ⟨.indented 4, false⟩

end DepGraph
