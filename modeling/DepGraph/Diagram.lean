/-
  DepGraph — the graph that is drawn.

  A survey becomes a graph in fixed stages: one of its two views is chosen,
  targets outside it are tagged or left out, names are filtered, what cannot be
  reached from the chosen roots is left out, and the edges are listed.  Then
  names are made shorter, and the containment of the names that remain is found.

  * `DiagramOptions`: what the stages are told.
  * `select`: the view that is drawn: modules, if there are any.
  * `Diagram.build`: the graph of a survey.
-/
import DepGraph.Containment.Basic
import DepGraph.Containment.Collapse
import DepGraph.Filter
import DepGraph.Graph.Shorten
import DepGraph.Survey

namespace DepGraph

/-- What the stages from a survey to a graph are told. -/
structure DiagramOptions where
  /-- Leave out what lies outside the tree. -/
  excludeExternal : Bool := false
  /-- The names that are drawn. -/
  results : NameFilter := .all
  /-- The names from which those drawn must be reached. -/
  roots : NameFilter := .all
  /-- The beginning that is cut from names. -/
  start : String := ""
  depths : Depths := ⟨0, 0⟩
  /-- Draw files even if modules are known. -/
  byPaths : Bool := false

/-- A graph, and what it was made from. -/
structure Diagram where
  survey : Survey
  dependencies : Dependencies
  edges : List Edge
  contains : Containment
  containsEdges : List Edge
  separator : String
  deriving DecidableEq

instance : Inhabited Diagram := ⟨⟨default, ∅, [], .nil, [], "/"⟩⟩

/-- The view that is drawn, and what separates the segments of its names. -/
def select (s : Survey) (byPaths : Bool) : Dependencies × String :=
  if !s.modules.isEmpty && !byPaths then (s.modules, s.separator) else (s.paths, "/")

namespace Diagram

/-- The dependencies that are drawn. -/
def dependenciesOf (s : Survey) (o : DiagramOptions) : Dependencies :=
  let marked := (select s o.byPaths).1.markExternal o.excludeExternal
  (marked.restrict o.results.passes).restrictToRoots o.roots.passes

/-- The edges that are drawn, before names are truncated. -/
def wholeEdges (o : DiagramOptions) (deps : Dependencies) : List Edge :=
  cutStarts o.start deps.edges

/-- The names within the tree. -/
def insideNames (o : DiagramOptions) (deps : Dependencies) : List String :=
  deps.keys.map (cutStart o.start)

/-- The edges that are drawn. -/
def edgesOf (separator : String) (o : DiagramOptions) (deps : Dependencies) : List Edge :=
  if o.depths.isActive then
    collapse separator o.depths (insideNames o deps) (wholeEdges o deps)
  else wholeEdges o deps

/-- The containment of the names that edges touch. -/
def containmentOf (separator : String) (edges : List Edge) : Containment :=
  Containment.ofNames separator (edges.flatMap fun e => [e.1, e.2])

/-- The graph of a survey; there is none if names are to be truncated that
  nothing separates into segments. -/
def build? (s : Survey) (o : DiagramOptions) : Option Diagram :=
  let separator := (select s o.byPaths).2
  let deps := dependenciesOf s o
  if o.depths.isActive &&
      lacksSeparator separator o.depths (insideNames o deps) (wholeEdges o deps) then none
  else
    let edges := edgesOf separator o deps
    let contains := containmentOf separator edges
    some ⟨s, deps, edges, contains, Containment.collapse contains.edges edges "", separator⟩

end Diagram

end DepGraph
