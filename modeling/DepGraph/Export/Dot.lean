/-
  DepGraph — graphs in the DOT language.

  Names that hold others become clusters, one within the other; a name stands in
  the cluster of what holds it, and an edge touches it if it stands in its own
  cluster.

  * `DotStatement`: the statements; `statements` are those of a graph.
  * `dotText`: the text of a graph.
-/
import DepGraph.Diagram

namespace DepGraph

open DepGraph.Text

/-- A statement of the DOT language. -/
inductive DotStatement
  | node (name : String)
  /-- Open the cluster of a name at a depth. -/
  | openCluster (name : String) (depth : Nat)
  | closeCluster
  | edge (e : Edge)
  deriving DecidableEq, Repr

namespace DotStatement

/-- A name between double quotes. -/
def quotedName (name : String) : String :=
  "\"" ++ replaceAll "\"" "\\\"" (replaceAll "\\" "\\\\" name) ++ "\""

/-- The identifier of the cluster of a name. -/
def clusterId (name : String) : String :=
  "cluster_" ++ String.ofList (name.toList.map fun c => if c.isAlphanum then c else '_')

/-- The background of a cluster at a depth. -/
def background (depth : Nat) : String :=
  match depth % 3 with
  | 0 => "#ffd0cc"
  | 1 => "#d0ffcc"
  | _ => "#d0ccff"

/-- The lines of a statement. -/
def text : DotStatement → List String
  | node name => [quotedName name]
  | openCluster name depth =>
    ["subgraph " ++ clusterId name ++ " \x7b",
      "style=\"rounded\"; bgcolor=\"" ++ background depth ++ "\"; label=" ++ quotedName name]
  | closeCluster => ["\x7d"]
  | edge e => [quotedName e.1 ++ " -> " ++ quotedName e.2]

/-- The statements of a level of the containment tree; `touched` are the names
  that edges touch. -/
def ofContainment (touched : List String) (depth : Nat) : Containment → List DotStatement
  | .nil => []
  | .leaf name rest => .node name :: ofContainment touched depth rest
  | .inner name below rest =>
    .openCluster name depth :: ((if name ∈ touched then [.node name] else []) ++
      ofContainment touched (depth + 1) below ++ [.closeCluster]) ++
        ofContainment touched depth rest

/-- The statements of a graph. -/
def ofDiagram (d : Diagram) : List DotStatement :=
  ofContainment (Containment.endpoints d.edges) 0 d.contains ++ d.edges.map .edge

end DotStatement

/-- A graph in the DOT language. -/
def dotText (d : Diagram) : String :=
  join "\n" (["digraph \x7b", "  overlap=false"] ++
    (DotStatement.ofDiagram d).flatMap DotStatement.text ++ ["\x7d"])

end DepGraph
