/-
  DepGraph — where a written DOT graph places its nodes.

  A graph is read line by line, with the clusters that are open; a cluster has the
  name that labels it.  The lines of a tree open a cluster for each name that holds
  others and close it after what it holds, so a node stands in the clusters of what
  holds it, and in its own.  Its name is one that edges touch, because a name that
  is only part of others has them below it.

  * `DotNode`, `graphNodes?`: the nodes of a text, with their clusters.
  * `Declares`: what some lines declare, whatever follows them.
  * `declares_ofContainment`: the nodes of a tree.
  * `graphNodes?_dotText`: the nodes of a written graph.
  * `dot_places_names`: the names that edges touch are placed once, each in the
    clusters of its ancestors.
-/
import DepGraph.Proofs.Containment.Ancestors
import DepGraph.Proofs.Diagram.Stages
import DepGraph.Proofs.Export.Quoting

namespace DepGraph

open DepGraph.Text

/-- A node that a graph declares. -/
structure DotNode where
  name : String
  /-- The clusters that it stands in, the outermost first. -/
  clusters : List String
  deriving DecidableEq, Repr

/-- What stands before the label of a cluster at a depth. -/
def labelStart (depth : Nat) : String :=
  "style=\"rounded\"; bgcolor=\"" ++ DotStatement.background depth ++ "\"; label="

/-- The label of a cluster at a depth, if two lines open one. -/
def opensCluster? (depth : Nat) (first second : String) : Option String := do
  guard (startsWith first "subgraph ")
  let (label, after) ← readName? (← dropPrefix? (labelStart depth) second)
  guard (after = "")
  return label

/-- The nodes that lines declare up to the end of the graph, below the clusters that
  are open.  There are none if a cluster stays open, or if lines follow the end. -/
def nodesWithin? (opened : List String) : List String → Option (List DotNode)
  | [] => none
  | line :: rest =>
    match readName? line with
    | some (name, after) =>
      if after = "" then (nodesWithin? opened rest).map (⟨name, opened⟩ :: ·)
      -- an edge declares no node
      else if startsWith after " -> " then nodesWithin? opened rest
      else none
    | none =>
      if line = "\x7d" then
        if opened ≠ [] then nodesWithin? opened.dropLast rest
        else if rest = [] then some [] else none
      else
        match rest with
        | [] => none
        | second :: rest =>
          match opensCluster? opened.length line second with
          | some label => nodesWithin? (opened ++ [label]) rest
          | none => none

/-- The nodes of a graph in the DOT language, each with its clusters. -/
def graphNodes? (text : String) : Option (List DotNode) :=
  (["digraph \x7b", "  overlap=false"].isPrefixOf? (quotedLines text)).bind (nodesWithin? [])

/-! ## What lines declare -/

/-- Some lines declare nodes and leave the clusters that are open as they are. -/
def Declares (opened : List String) (lines : List String) (nodes : List DotNode) : Prop :=
  ∀ rest, nodesWithin? opened (lines ++ rest) = (nodesWithin? opened rest).map (nodes ++ ·)

section
variable {opened lines lines' : List String} {nodes nodes' : List DotNode}

theorem declares_nil (opened : List String) : Declares opened [] [] := by
  intro rest
  simp

theorem Declares.append (h : Declares opened lines nodes) (h' : Declares opened lines' nodes') :
    Declares opened (lines ++ lines') (nodes ++ nodes') := by
  intro rest
  rw [List.append_assoc, h, h', Option.map_map]
  exact congrArg (Option.map · _) (funext fun _ => (List.append_assoc ..).symm)

theorem declares_node (opened : List String) (name : String) :
    Declares opened (DotStatement.node name).text [⟨name, opened⟩] := by
  intro rest
  cases rest <;> simp [DotStatement.text, nodesWithin?, readName?_quotedName_end]

theorem declares_edge (opened : List String) (e : Edge) :
    Declares opened (DotStatement.edge e).text [] := by
  intro rest
  have hread := readName?_quotedName e.1 (" -> " ++ DotStatement.quotedName e.2)
  rw [← String.append_assoc] at hread
  have harrow : startsWith (" -> " ++ DotStatement.quotedName e.2) " -> " = true :=
    startsWith_iff.2 ⟨_, rfl⟩
  cases rest <;> simp [DotStatement.text, nodesWithin?, hread, harrow]

theorem text_openCluster (name : String) (depth : Nat) :
    (DotStatement.openCluster name depth).text =
      ["subgraph " ++ (DotStatement.clusterId name ++ " \x7b"),
        labelStart depth ++ DotStatement.quotedName name] := by
  unfold DotStatement.text labelStart
  simp only [String.append_assoc]

theorem opensCluster?_eq_some (name after : String) (depth : Nat) :
    opensCluster? depth ("subgraph " ++ after) (labelStart depth ++ DotStatement.quotedName name) =
      some name := by
  have hfirst : startsWith ("subgraph " ++ after) "subgraph " = true := startsWith_iff.2 ⟨_, rfl⟩
  have hsecond : dropPrefix? (labelStart depth) (labelStart depth ++ DotStatement.quotedName name) =
      some (DotStatement.quotedName name) := dropPrefix?_eq_some_iff.2 rfl
  simp [opensCluster?, hfirst, hsecond, readName?_quotedName_end]

/-- What is declared between the start and the end of a cluster stands in it. -/
theorem Declares.cluster {name : String} (h : Declares (opened ++ [name]) lines nodes) :
    Declares opened ((DotStatement.openCluster name opened.length).text ++ lines ++
      DotStatement.closeCluster.text) nodes := by
  intro rest
  have hread : readName? "\x7d" = none := by decide +kernel
  have hclose : nodesWithin? (opened ++ [name]) ("\x7d" :: rest) = nodesWithin? opened rest := by
    cases rest <;> simp [nodesWithin?, hread]
  -- the first line starts with a letter
  have hfirst (after : String) : readName? ("subgraph " ++ after) = none := by
    simp [readName?, dropPrefix?, List.isPrefixOf?]
  have hend (after : String) : "subgraph " ++ after ≠ "\x7d" := fun h => by
    simpa using congrArg String.toList h
  rw [text_openCluster]
  calc nodesWithin? opened (["subgraph " ++ (DotStatement.clusterId name ++ " \x7b"),
          labelStart opened.length ++ DotStatement.quotedName name] ++ lines ++ ["\x7d"] ++ rest)
      = nodesWithin? (opened ++ [name]) (lines ++ "\x7d" :: rest) := by
        simp [nodesWithin?, hfirst, hend, opensCluster?_eq_some]
    _ = (nodesWithin? opened rest).map (nodes ++ ·) := by rw [h, hclose]

theorem declares_edges (opened : List String) (edges : List Edge) :
    Declares opened ((edges.map DotStatement.edge).flatMap DotStatement.text) [] := by
  induction edges with
  | nil => exact declares_nil opened
  | cons e rest ih => exact (declares_edge opened e).append ih

end

/-! ## The nodes of a tree -/

namespace Place

/-- The clusters that an entry stands in: those above it, and its own. -/
def clusters (x : Place) : List String := x.above ++ if x.inner then [x.name] else []

/-- An entry is drawn, unless it holds others and no edge touches it. -/
def isDrawn (touched : List String) (x : Place) : Bool := !x.inner || x.name ∈ touched

section
variable (above touched : List String) (name : String) (x : Place)

@[simp] theorem clusters_leaf : clusters ⟨above, name, false⟩ = above := List.append_nil above

@[simp] theorem clusters_inner : clusters ⟨above, name, true⟩ = above ++ [name] := rfl

@[simp] theorem clusters_under : (x.under name).clusters = name :: x.clusters := rfl

@[simp] theorem isDrawn_leaf : isDrawn touched ⟨above, name, false⟩ = true := rfl

@[simp] theorem isDrawn_inner :
    isDrawn touched ⟨above, name, true⟩ = decide (name ∈ touched) := rfl

@[simp] theorem isDrawn_under : (x.under name).isDrawn touched = x.isDrawn touched := rfl

end

end Place

/-- The nodes of a tree, below the clusters that are open. -/
def dotNodes (touched opened : List String) (tree : Containment) : List DotNode :=
  (tree.places.filter (·.isDrawn touched)).map fun x => ⟨x.name, opened ++ x.clusters⟩

section
variable {touched opened : List String} {name : String} {below rest : Containment}

theorem dotNodes_leaf : dotNodes touched opened (.leaf name rest) =
    ⟨name, opened⟩ :: dotNodes touched opened rest := by
  simp [dotNodes, Containment.places, List.filter_cons]

theorem dotNodes_inner : dotNodes touched opened (.inner name below rest) =
    (if name ∈ touched then [⟨name, opened ++ [name]⟩] else []) ++
      dotNodes touched (opened ++ [name]) below ++ dotNodes touched opened rest := by
  by_cases hname : name ∈ touched <;>
    simp [dotNodes, Containment.places, hname, List.filter_map, Function.comp_def]

end

/-- **The lines of a tree declare its nodes.** -/
theorem declares_ofContainment (touched opened : List String) (tree : Containment) :
    Declares opened ((DotStatement.ofContainment touched opened.length tree).flatMap
      DotStatement.text) (dotNodes touched opened tree) := by
  induction tree generalizing opened with
  | nil => exact declares_nil opened
  | leaf name rest ih =>
    rw [dotNodes_leaf]
    exact (declares_node opened name).append (ih opened)
  | inner name below rest ihb ihr =>
    have hown : Declares (opened ++ [name])
        ((if name ∈ touched then [DotStatement.node name] else []).flatMap DotStatement.text)
        (if name ∈ touched then [⟨name, opened ++ [name]⟩] else []) := by
      split
      · exact declares_node _ name
      · exact declares_nil _
    have hbelow := ihb (opened ++ [name])
    rw [List.length_append, List.length_singleton] at hbelow
    rw [dotNodes_inner]
    simpa [DotStatement.ofContainment] using (hown.append hbelow).cluster.append (ihr opened)

/-! ## The nodes of a text -/

theorem isLine_labelStart (depth : Nat) : IsLine (labelStart depth) := by
  unfold labelStart DotStatement.background
  split <;> decide +kernel

theorem isLine_clusterId (name : String) : IsLine (DotStatement.clusterId name) := by
  have hchar (c : Char) : (if c.isAlphanum then c else '_') ≠ '"' ∧
      (if c.isAlphanum then c else '_') ≠ '\n' := by
    split
    · next hc =>
      constructor
      · rintro rfl
        exact absurd hc (by decide)
      · rintro rfl
        exact absurd hc (by decide)
    · decide
  have hstart : IsLine "cluster_" := by decide
  refine hstart.append (isLine_of_plain fun c hc => ?_)
  rw [String.toList_ofList] at hc
  obtain ⟨c, -, rfl⟩ := List.mem_map.1 hc
  exact hchar c

theorem isLine_text (x : DotStatement) : ∀ line ∈ x.text, IsLine line := by
  cases x with
  | node name => simpa [DotStatement.text] using isLine_quotedName name
  | openCluster name depth =>
    have hfirst : IsLine ("subgraph " ++ (DotStatement.clusterId name ++ " \x7b")) :=
      (by decide : IsLine "subgraph ").append ((isLine_clusterId name).append (by decide))
    have hsecond := (isLine_labelStart depth).append (isLine_quotedName name)
    rw [text_openCluster]
    simp [hfirst, hsecond]
  | closeCluster => decide +kernel
  | edge e =>
    have hedge := ((isLine_quotedName e.1).append (by decide : IsLine " -> ")).append
      (isLine_quotedName e.2)
    simpa [DotStatement.text] using hedge

/-- The lines of a written graph. -/
theorem quotedLines_dotText (d : Diagram) :
    quotedLines (dotText d) = ["digraph \x7b", "  overlap=false"] ++
      (DotStatement.ofDiagram d).flatMap DotStatement.text ++ ["\x7d"] := by
  refine quotedLines_join (by simp) fun line hline => ?_
  rw [List.mem_append, List.mem_append, List.mem_flatMap] at hline
  rcases hline with (hline | ⟨x, -, hline⟩) | hline
  · revert line; decide
  · exact isLine_text x line hline
  · revert line; decide

/-- The nodes of a written graph are those of its tree. -/
theorem graphNodes?_dotText (d : Diagram) :
    graphNodes? (dotText d) = some (dotNodes (Containment.endpoints d.edges) [] d.contains) := by
  have hnodes : Declares [] ((DotStatement.ofDiagram d).flatMap DotStatement.text)
      (dotNodes (Containment.endpoints d.edges) [] d.contains) := by
    have hall := (declares_ofContainment (Containment.endpoints d.edges) [] d.contains).append
      (declares_edges [] d.edges)
    rwa [← List.flatMap_append, List.append_nil] at hall
  have hend : nodesWithin? [] ["\x7d"] = some [] := by decide +kernel
  have hstart (lines : List String) : ["digraph \x7b", "  overlap=false"].isPrefixOf?
      (["digraph \x7b", "  overlap=false"] ++ lines) = some lines :=
    List.isPrefixOf?_eq_some_iff_append_eq.2 rfl
  rw [graphNodes?, quotedLines_dotText, List.append_assoc, hstart, Option.bind_some, hnodes, hend,
    Option.map_some, List.append_nil]

/-! ## The nodes of a graph that is made -/

section
variable {separator : String} {names : List String} {x : Place}

/-- An entry that is drawn has a name that is entered: if its name is only a part of
  such names, something stands below it. -/
theorem isDrawn_iff (hx : x ∈ (Containment.ofNames separator names).places) :
    x.isDrawn names = true ↔ x.name ∈ names := by
  rw [Place.isDrawn, Bool.or_eq_true, Bool.not_eq_true', decide_eq_true_eq, or_iff_right_iff_imp]
  intro hleaf
  obtain ⟨-, n, hn, heq | hpart⟩ :=
    Containment.mem_names_ofNames.1 (Containment.name_mem_names hx)
  · exact heq ▸ hn
  · have hinner := (Containment.inner_iff hx).2 ⟨n, hn, hpart⟩
    exact absurd hinner (Bool.eq_false_iff.1 hleaf)

theorem map_name_dotNodes (touched opened : List String) (tree : Containment) :
    (dotNodes touched opened tree).map (·.name) =
      (tree.places.filter (·.isDrawn touched)).map (·.name) := by
  rw [dotNodes, List.map_map]
  rfl

/-- The names that are entered are drawn, as far as they are not empty. -/
theorem mem_map_name_dotNodes {name : String} :
    name ∈ (dotNodes names [] (.ofNames separator names)).map (·.name) ↔
      name ≠ "" ∧ name ∈ names := by
  rw [map_name_dotNodes, List.mem_map]
  constructor
  · rintro ⟨x, hx, rfl⟩
    obtain ⟨hx, hdrawn⟩ := List.mem_filter.1 hx
    exact ⟨(Containment.mem_names_ofNames.1 (Containment.name_mem_names hx)).1,
      (isDrawn_iff hx).1 hdrawn⟩
  · rintro ⟨hne, hmem⟩
    obtain ⟨x, hx, rfl⟩ := Containment.mem_names.1
      (Containment.mem_names_ofNames.2 ⟨hne, name, hmem, .inl rfl⟩)
    exact ⟨x, List.mem_filter.2 ⟨hx, (isDrawn_iff hx).2 hmem⟩, rfl⟩

theorem nodup_map_name_dotNodes (touched opened : List String) :
    ((dotNodes touched opened (.ofNames separator names)).map (·.name)).Nodup := by
  rw [map_name_dotNodes]
  exact (Containment.nodup_map_name_places separator names).sublist (List.filter_sublist.map _)

theorem clusters_sublist_path (x : Place) : x.clusters.Sublist x.path := by
  obtain ⟨above, name, inner⟩ := x
  cases inner with
  | true => exact List.Sublist.refl _
  | false => simp [Place.path]

/-- An entry stands in the clusters of what stands above it, and in its own if
  something stands below it. -/
theorem mem_clusters_iff (hx : x ∈ (Containment.ofNames separator names).places) {c : String} :
    c ∈ x.clusters ↔ (Containment.ofNames separator names).Above c x.name ∨
      c = x.name ∧ ∃ below, (c, below) ∈ (Containment.ofNames separator names).edges := by
  have hown : c ∈ (if x.inner then [x.name] else []) ↔ c = x.name ∧ x.inner = true := by
    cases x.inner <;> simp
  rw [Place.clusters, List.mem_append, Containment.mem_above_iff (Containment.chain_name hx),
    Containment.above_iff (Containment.name_mem_names hx), hown, Containment.inner_iff hx,
    Containment.exists_below_iff]
  refine or_congr_right (and_congr_right fun heq => ?_)
  rw [heq]

end

/-- **Names are placed once, in the clusters of their ancestors**: if something
  separates segments or no name is truncated, a graph is made.  In the text of every
  graph all clusters are closed, and nodes are the names that edges touch and that are
  not empty, each once; a node stands in the clusters of the names above it, and in
  its own if something stands below it, the outermost first and none twice. -/
theorem dot_places_names (s : Survey) (o : DiagramOptions) :
    ((select s o.byPaths).2 ≠ "" ∨ o.depths.isActive = false → ∃ d, Diagram.build? s o = some d) ∧
      ∀ d, Diagram.build? s o = some d → ∃ nodes, graphNodes? (dotText d) = some nodes ∧
        (∀ name, (nodes.map (·.name)).count name =
          if name ≠ "" ∧ name ∈ Containment.endpoints d.edges then 1 else 0) ∧
        ∀ v ∈ nodes, v.clusters.Nodup ∧ v.clusters.Pairwise d.contains.Above ∧
          ∀ c, c ∈ v.clusters ↔ d.contains.Above c v.name ∨
            c = v.name ∧ ∃ below, (c, below) ∈ d.contains.edges := by
  constructor
  · intro hmade
    obtain ⟨d, hd, -⟩ := Diagram.exists_build?_of_separates hmade
    exact ⟨d, hd⟩
  · intro d hd
    refine ⟨_, graphNodes?_dotText d, ?_⟩
    rw [(Diagram.madeFrom_of_build? hd).contains]
    constructor
    · intro name
      rw [List.Nodup.count (nodup_map_name_dotNodes _ _)]
      simp only [mem_map_name_dotNodes]
    · intro v hv
      obtain ⟨x, hx, rfl⟩ := List.mem_map.1 hv
      have hplace := List.mem_of_mem_filter hx
      rw [List.nil_append]
      exact ⟨(Containment.nodup_path hplace).sublist (clusters_sublist_path x),
        (Containment.pairwise_above_path hplace).sublist (clusters_sublist_path x),
        fun c => mem_clusters_iff hplace⟩

/-- A folder that refers to a file and is referred to; the name of what refers to it
  is cut off whole, and the folder within it is touched by no edge. -/
def referredFolder : Survey :=
  { Survey.empty "/" with
    paths := OrderedMap.ofList
      [("r/", ["r/a"]), ("r/a", ["r/a/b\"", "lib"]), ("r/a/b\"", ["r/a/c/d"]), ("r/a/c/d", [])] }

theorem dot_places_names_referredFolder :
    ∃ d, Diagram.build? referredFolder { start := "r/" } = some d ∧
      d.edges = [("", "a"), ("a", "a/b\""), ("a", "*external*/lib"), ("a/b\"", "a/c/d")] ∧
      graphNodes? (dotText d) = some [⟨"a", ["a"]⟩, ⟨"a/b\"", ["a"]⟩, ⟨"a/c/d", ["a", "a/c"]⟩,
        ⟨"*external*/lib", ["*external*"]⟩] ∧
      d.contains.Above "a" "a/c/d" ∧ d.contains.Above "a/c" "a/c/d" := by
  obtain ⟨hmade, hplaces⟩ := dot_places_names referredFolder { start := "r/" }
  obtain ⟨d, hd⟩ := hmade (.inl (by decide))
  obtain ⟨nodes, hnodes, -, hclusters⟩ := hplaces d hd
  have hparts : (Diagram.build? referredFolder { start := "r/" }).map (fun d =>
      (d.edges, dotNodes (Containment.endpoints d.edges) [] d.contains)) =
      some ([("", "a"), ("a", "a/b\""), ("a", "*external*/lib"), ("a/b\"", "a/c/d")],
        [⟨"a", ["a"]⟩, ⟨"a/b\"", ["a"]⟩, ⟨"a/c/d", ["a", "a/c"]⟩,
          ⟨"*external*/lib", ["*external*"]⟩]) := by decide +kernel
  rw [hd, Option.map_some, Option.some.injEq, Prod.mk.injEq] at hparts
  obtain ⟨hedges, hdrawn⟩ := hparts
  obtain rfl : _ = nodes := Option.some.inj ((graphNodes?_dotText d).symm.trans hnodes)
  rw [hdrawn] at hnodes hclusters
  -- the file in the second folder stands in both clusters, and neither is its own
  have habove (c : String) (hc : c ∈ ["a", "a/c"]) : d.contains.Above c "a/c/d" := by
    obtain ⟨-, -, hiff⟩ := hclusters ⟨"a/c/d", ["a", "a/c"]⟩ (by simp)
    refine ((hiff c).1 hc).resolve_right fun ⟨heq, _⟩ => ?_
    revert hc
    rw [heq]
    decide
  exact ⟨d, hd, hedges, hnodes, habove "a" (by simp), habove "a/c" (by simp)⟩

end DepGraph
