/-
  DepGraph — cycles.

  Cycles are found greedily.  Edges that lead to no cycle are pruned; then the
  first edge out of a node is followed from node to node until a node comes
  again.  What was walked since then is a cycle, and the first edges of all
  nodes of the walk are removed before the next search.

  * `pruneDeadEnds`: the edges whose targets all have an edge to go on with.
  * `walk`: the nodes met by following first edges, up to the first repetition.
  * `search?`: the cycles, each with its first node repeated at the end, unless
    a walk cannot go on.
  * `findCycles`: the cycles.
  * `length_dropFirstEdges_lt`: every search removes an edge.
-/
import DepGraph.Graph.Dependencies

namespace DepGraph.Cycle

/-- A node has an outgoing edge. -/
def hasSource (edges : List Edge) (node : String) : Bool := edges.any (·.1 == node)

/-- The edges whose target has an outgoing edge. -/
def prune (edges : List Edge) : List Edge := edges.filter fun e => hasSource edges e.2

theorem length_prune_le (edges : List Edge) : (prune edges).length ≤ edges.length :=
  List.length_filter_le _ _

/-- Drop edges whose target has no outgoing edge until none is left. -/
def pruneDeadEnds (edges : List Edge) : List Edge :=
  if (prune edges).length < edges.length then pruneDeadEnds (prune edges) else edges
  termination_by edges.length

theorem length_pruneDeadEnds_le (edges : List Edge) :
    (pruneDeadEnds edges).length ≤ edges.length := by
  fun_induction pruneDeadEnds edges with
  | case1 edges h ih => omega
  | case2 edges h => omega

/-- The target of the first edge out of a node. -/
def next? (edges : List Edge) (node : String) : Option String :=
  (edges.find? (·.1 == node)).map (·.2)

/-- Follow first edges from a node, after the nodes of `before` (last first),
  until a node comes again: the nodes walked, last first, and the node that
  comes again, if the walk does not end before. -/
def walkFrom (edges : List Edge) : Nat → List String → String → List String × Option String
  | 0, before, _ => (before, none)
  | fuel + 1, before, node =>
    if node ∈ before then (before, some node)
    else
      match next? edges node with
      | none => (node :: before, none)
      | some target => walkFrom edges fuel (node :: before) target

/-- The walk from a node: its nodes in order, and the one that comes again. -/
def walk (edges : List Edge) (node : String) : List String × Option String :=
  let (nodes, again) := walkFrom edges (edges.length + 2) [] node
  (nodes.reverse, again)

/-- The part of a walk from the node that comes again, and that node at the end. -/
def closeWalk (nodes : List String) (again : String) : List String :=
  nodes.dropWhile (· != again) ++ [again]

/-- Remove the first edge out of each of some nodes. -/
def dropFirstEdges (nodes : List String) (edges : List Edge) : List Edge :=
  nodes.foldl (fun es node => es.eraseP (·.1 == node)) edges

theorem length_dropFirstEdges_le (nodes : List String) (edges : List Edge) :
    (dropFirstEdges nodes edges).length ≤ edges.length := by
  induction nodes generalizing edges with
  | nil => exact Nat.le_refl _
  | cons node rest ih =>
    exact Nat.le_trans (ih _) List.length_eraseP_le

/-- Every search removes an edge. -/
theorem length_dropFirstEdges_lt (e : Edge) (nodes : List String) (edges : List Edge) :
    (dropFirstEdges (e.1 :: nodes) (e :: edges)).length < (e :: edges).length := by
  have h : dropFirstEdges (e.1 :: nodes) (e :: edges) = dropFirstEdges nodes edges := by
    simp [dropFirstEdges]
  rw [h]
  exact Nat.lt_succ_of_le (length_dropFirstEdges_le nodes edges)

/-- The cycles that a greedy search finds, in the order in which it finds them.
  The search breaks off if a walk comes to a node that no edge leaves. -/
def search? (edges : List Edge) : Option (List (List String)) :=
  match h : pruneDeadEnds edges with
  | [] => some []
  | e :: rest =>
    match walk (e :: rest) e.1 with
    | (_, none) => none
    | (nodes, some again) =>
      (search? (dropFirstEdges (e.1 :: nodes.drop 1) (e :: rest))).map (closeWalk nodes again :: ·)
  termination_by edges.length
  decreasing_by
    have h₁ := length_pruneDeadEnds_le edges
    rw [h] at h₁
    exact Nat.lt_of_lt_of_le (length_dropFirstEdges_lt e _ rest) h₁

/-- The cycles that a greedy search finds; after pruning it never breaks off. -/
def findCycles (edges : List Edge) : List (List String) := (search? edges).getD []

end DepGraph.Cycle
