/-
  DepGraph — collapsing containment edges.

  A node that contains exactly one other node, and that no dependency touches,
  says nothing: it is spliced out, and what contained it contains its only
  child instead.

  * `isTrivial`: an edge from such a node.
  * `splice?`: the edges after the first such node is spliced out.
  * `collapse`: spliced until no such node is left.
-/
import DepGraph.Graph.Dependencies

namespace DepGraph.Containment

/-- The names that an edge list touches. -/
def endpoints (edges : List Edge) : List String := edges.flatMap fun e => [e.1, e.2]

/-- The edge is the only one from its node, which is not the root and which no
  dependency touches. -/
def isTrivial (root : String) (connected : List String) (edges : List Edge) (e : Edge) : Bool :=
  e.1 != root && !connected.contains e.1 && edges.countP (·.1 == e.1) == 1

/-- Let the first edge to a node lead to another one. -/
def redirect (node target : String) : List Edge → List Edge
  | [] => []
  | e :: rest => if e.2 = node then (e.1, target) :: rest else e :: redirect node target rest

/-- The edges after the first node that says nothing is spliced out. -/
def splice? (root : String) (connected : List String) (edges : List Edge) : Option (List Edge) :=
  (edges.find? (isTrivial root connected edges)).map fun e =>
    (redirect e.1 e.2 edges).erase e

/-- Splice at most `fuel` nodes out. -/
def collapseWith (root : String) (connected : List String) : Nat → List Edge → List Edge
  | 0, edges => edges
  | fuel + 1, edges =>
    match splice? root connected edges with
    | none => edges
    | some edges' => collapseWith root connected fuel edges'

/-- Splice out the nodes that say nothing.  Every splice removes an edge, so
  there are at most as many as edges. -/
def collapse (contains dependencies : List Edge) (root : String) : List Edge :=
  collapseWith root (endpoints dependencies) contains.length contains

end DepGraph.Containment
