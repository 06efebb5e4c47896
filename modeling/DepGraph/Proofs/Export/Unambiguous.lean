/-
  DepGraph — a DOT text tells the graph that is drawn.

  The lines of a written graph are read back from its text, and the beginning of a
  line tells its kind: a node is a quoted name and nothing else, an edge is a quoted
  name with an arrow after it.  So the edges are read off the lines.  Where a level
  of the tree ends is told by the first line after it: it closes a cluster, is an
  edge, or ends the graph.

  * `readEdge?`, `drawnEdges`: the edges in a text.
  * `drawnEdges_dotText`: those of a written graph.
  * `EndsLevel`: lines with which no entry of a tree starts.
  * `treeLines_inj`: the lines of trees, up to where the level ends.
  * `dotText_eq_iff`: graphs with one text have the same edges and the same tree.
-/
import DepGraph.Proofs.Export.Dot

namespace DepGraph

open DepGraph.Text

/-! ## Edges -/

/-- The edge of a line: two quoted names with an arrow between them. -/
def readEdge? (line : String) : Option Edge := do
  let (source, after) ← readName? line
  let (target, after) ← readName? (← dropPrefix? " -> " after)
  guard (after = "")
  return (source, target)

/-- The edges in the text of a graph, in order. -/
def drawnEdges (text : String) : List Edge := (quotedLines text).filterMap readEdge?

theorem readEdge?_quotedName (name : String) : readEdge? (DotStatement.quotedName name) = none := by
  have harrow : dropPrefix? " -> " "" = none := by decide
  simp [readEdge?, readName?_quotedName_end, harrow]

theorem readEdge?_edge (e : Edge) :
    readEdge? (DotStatement.quotedName e.1 ++ " -> " ++ DotStatement.quotedName e.2) = some e := by
  have harrow : dropPrefix? " -> " (" -> " ++ DotStatement.quotedName e.2) =
      some (DotStatement.quotedName e.2) := dropPrefix?_eq_some_iff.2 rfl
  rw [String.append_assoc]
  simp [readEdge?, readName?_quotedName, readName?_quotedName_end, harrow]

/-- A line that starts with a letter holds no edge. -/
theorem readEdge?_letter (after : String) : readEdge? ("s" ++ after) = none := by
  simp [readEdge?, readName?, dropPrefix?, List.isPrefixOf?]

theorem subgraph_eq (after : String) : "subgraph " ++ after = "s" ++ ("ubgraph " ++ after) := by
  have hstart : "subgraph " = "s" ++ "ubgraph " := by decide
  rw [hstart, String.append_assoc]

theorem labelStart_eq (depth : Nat) : ∃ rest, labelStart depth = "s" ++ rest := by
  have hstart : "style=\"rounded\"; bgcolor=\"" = "s" ++ "tyle=\"rounded\"; bgcolor=\"" := by decide
  unfold labelStart
  rw [hstart]
  simp only [String.append_assoc]
  exact ⟨_, rfl⟩

/-- Only the line of an edge holds one. -/
theorem filterMap_readEdge?_text (x : DotStatement) :
    x.text.filterMap readEdge? =
      match x with
      | .edge e => [e]
      | _ => [] := by
  cases x with
  | node name => simp [DotStatement.text, readEdge?_quotedName]
  | openCluster name depth =>
    obtain ⟨start, hstart⟩ := labelStart_eq depth
    rw [text_openCluster, hstart, subgraph_eq, String.append_assoc]
    simp [readEdge?_letter]
  | closeCluster => decide
  | edge e => simp [DotStatement.text, readEdge?_edge]

theorem filterMap_readEdge?_ofContainment (touched : List String) (depth : Nat)
    (tree : Containment) :
    ((DotStatement.ofContainment touched depth tree).flatMap DotStatement.text).filterMap
      readEdge? = [] := by
  induction tree generalizing depth with
  | nil => rfl
  | leaf name rest ih =>
    simp [DotStatement.ofContainment, filterMap_readEdge?_text, ih]
  | inner name below rest ihb ihr =>
    have hown : ((if name ∈ touched then [DotStatement.node name] else []).flatMap
        DotStatement.text).filterMap readEdge? = [] := by
      split
      · simp [filterMap_readEdge?_text]
      · rfl
    simp [DotStatement.ofContainment, filterMap_readEdge?_text, hown, ihb, ihr]

/-- The edges are read back from the text. -/
theorem drawnEdges_dotText (d : Diagram) : drawnEdges (dotText d) = d.edges := by
  have hedges : ((d.edges.map DotStatement.edge).flatMap DotStatement.text).filterMap
      readEdge? = d.edges := by
    rw [List.filterMap_flatMap, List.flatMap_map]
    simp [filterMap_readEdge?_text]
  have hstart : ["digraph \x7b", "  overlap=false"].filterMap readEdge? = [] := by decide
  have hend : ["\x7d"].filterMap readEdge? = [] := by decide
  rw [drawnEdges, quotedLines_dotText, List.filterMap_append, List.filterMap_append, hstart, hend,
    DotStatement.ofDiagram, List.flatMap_append, List.filterMap_append,
    filterMap_readEdge?_ofContainment, hedges, List.append_nil, List.nil_append, List.nil_append]

/-! ## Trees -/

theorem quotedName_inj {m n : String} :
    DotStatement.quotedName m = DotStatement.quotedName n ↔ m = n := by
  refine ⟨fun h => ?_, congrArg _⟩
  have hread := congrArg readName? h
  rw [readName?_quotedName_end, readName?_quotedName_end] at hread
  simpa using hread

/-- Lines with which no entry of a tree starts. -/
def EndsLevel (lines : List String) : Prop :=
  ∀ line ∈ lines.head?, (∀ name, line ≠ DotStatement.quotedName name) ∧
    ∀ after, line ≠ "subgraph " ++ after

/-- The lines of a tree below the top of the graph. -/
def treeLines (touched : List String) (depth : Nat) (tree : Containment) : List String :=
  (DotStatement.ofContainment touched depth tree).flatMap DotStatement.text

section
variable {touched : List String} {depth : Nat} {name : String} {below rest : Containment}
  {lines : List String}

theorem EndsLevel.not_node (h : EndsLevel (DotStatement.quotedName name :: lines)) : False :=
  (h _ rfl).1 name rfl

theorem EndsLevel.not_subgraph {after : String}
    (h : EndsLevel (("subgraph " ++ after) :: lines)) : False :=
  (h _ rfl).2 after rfl

theorem endsLevel_close (lines : List String) : EndsLevel ("\x7d" :: lines) := by
  rintro line ⟨⟩
  constructor
  · intro name h
    simpa [toList_quotedName] using congrArg String.toList h
  · intro after h
    simpa using congrArg String.toList h

theorem endsLevel_edges (edges : List Edge) :
    EndsLevel ((edges.map DotStatement.edge).flatMap DotStatement.text ++ ["\x7d"]) := by
  cases edges with
  | nil => exact endsLevel_close []
  | cons e edges =>
    rintro line ⟨⟩
    constructor
    · intro name h
      have hread := congrArg readEdge? h
      rw [readEdge?_edge, readEdge?_quotedName] at hread
      cases hread
    · intro after h
      have hread := congrArg readEdge? h
      rw [readEdge?_edge, subgraph_eq, readEdge?_letter] at hread
      cases hread

theorem treeLines_leaf (touched : List String) (depth : Nat) (name : String) (rest : Containment)
    (lines : List String) : treeLines touched depth (.leaf name rest) ++ lines =
      DotStatement.quotedName name :: (treeLines touched depth rest ++ lines) := rfl

theorem treeLines_inner (touched : List String) (depth : Nat) (name : String)
    (below rest : Containment) (lines : List String) :
    treeLines touched depth (.inner name below rest) ++ lines =
      ("subgraph " ++ (DotStatement.clusterId name ++ " \x7b")) ::
        (labelStart depth ++ DotStatement.quotedName name) ::
          ((if name ∈ touched then [DotStatement.quotedName name] else []) ++
            (treeLines touched (depth + 1) below ++
              ("\x7d" :: (treeLines touched depth rest ++ lines)))) := by
  have hnode : (DotStatement.node name).text = [DotStatement.quotedName name] := rfl
  have hclose : DotStatement.closeCluster.text = ["\x7d"] := rfl
  by_cases hname : name ∈ touched <;>
    simp [treeLines, DotStatement.ofContainment, text_openCluster, hnode, hclose, hname]

end

/-- **The lines of trees differ**, also with lines after them, if no entry of a tree
  starts with these. -/
theorem treeLines_inj {touched : List String} {depth : Nat} {tree tree' : Containment}
    {lines lines' : List String} (hlines : EndsLevel lines) (hlines' : EndsLevel lines')
    (h : treeLines touched depth tree ++ lines = treeLines touched depth tree' ++ lines') :
    tree = tree' ∧ lines = lines' := by
  induction tree generalizing depth tree' lines lines' with
  | nil =>
    cases tree' with
    | nil => exact ⟨rfl, h⟩
    | leaf name' rest' =>
      obtain rfl : lines = _ := h
      exact hlines.not_node.elim
    | inner name' below' rest' =>
      rw [treeLines_inner] at h
      obtain rfl : lines = _ := h
      exact hlines.not_subgraph.elim
  | leaf name rest ih =>
    cases tree' with
    | nil =>
      obtain rfl : _ = lines' := h
      exact hlines'.not_node.elim
    | leaf name' rest' =>
      rw [treeLines_leaf, treeLines_leaf, List.cons.injEq, quotedName_inj] at h
      obtain ⟨rfl, hrest⟩ := h
      obtain ⟨rfl, rfl⟩ := ih hlines hlines' hrest
      exact ⟨rfl, rfl⟩
    | inner name' below' rest' =>
      rw [treeLines_leaf, treeLines_inner, List.cons.injEq] at h
      simpa [toList_quotedName] using congrArg String.toList h.1
  | inner name below rest ihb ihr =>
    rw [treeLines_inner] at h
    cases tree' with
    | nil =>
      obtain rfl : _ = lines' := h
      exact hlines'.not_subgraph.elim
    | leaf name' rest' =>
      rw [treeLines_leaf, List.cons.injEq] at h
      simpa [toList_quotedName] using congrArg String.toList h.1
    | inner name' below' rest' =>
      rw [treeLines_inner, List.cons.injEq, List.cons.injEq] at h
      obtain ⟨-, hlabel, hown⟩ := h
      obtain rfl : name = name' := quotedName_inj.1 ((String.append_right_inj _).1 hlabel)
      -- the edges tell whether the name has a node of its own
      obtain ⟨rfl, hrest⟩ :=
        ihb (endsLevel_close _) (endsLevel_close _) (List.append_cancel_left hown)
      obtain ⟨rfl, rfl⟩ := ihr hlines hlines' (List.cons.inj hrest).2
      exact ⟨rfl, rfl⟩

/-- **A DOT text tells the graph**: two graphs are written alike iff they have the same
  edges, in the same order, and the same tree. -/
theorem dotText_eq_iff (d d' : Diagram) :
    dotText d = dotText d' ↔ d.edges = d'.edges ∧ d.contains = d'.contains := by
  constructor
  · intro h
    have hedges : d.edges = d'.edges := by
      rw [← drawnEdges_dotText d, h, drawnEdges_dotText]
    have hlines := congrArg quotedLines h
    rw [quotedLines_dotText, quotedLines_dotText, DotStatement.ofDiagram, DotStatement.ofDiagram,
      hedges, List.flatMap_append, List.flatMap_append, List.append_assoc, List.append_assoc,
      List.append_assoc, List.append_assoc, List.append_cancel_left_eq] at hlines
    exact ⟨hedges, (treeLines_inj (endsLevel_edges _) (endsLevel_edges _) hlines).1⟩
  · rintro ⟨hedges, hcontains⟩
    rw [dotText, DotStatement.ofDiagram, hedges, hcontains]
    rfl

end DepGraph
