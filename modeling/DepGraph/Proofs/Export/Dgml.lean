/-
  DepGraph — every link of a written graph leads between declared nodes.

  A graph is written line by line, and names do not break lines, so its nodes and
  links can be read off the text.  The nodes are the names that contain others and
  the names that edges touch.  An end of a containment link is one of these: below
  an entry stands a name that edges touch or that contains others itself, however
  many nodes are spliced out.

  * `nodeIds`, `linkEnds`: the nodes and the links that a text declares.
  * `nodeIds_dgmlText`, `linkEnds_dgmlText`: those of a written graph.
  * `dgml_declares_ends`: no node is declared twice, and both ends of every link
    are declared.
-/
import DepGraph.Proofs.Containment.Splice
import DepGraph.Proofs.Diagram.Stages
import DepGraph.Proofs.Export.Attribute

namespace DepGraph

open DepGraph.Text Dependencies

/-- The node that a line declares. -/
def nodeId? (line : String) : Option String := do
  let (name, _) ← readValue? (← dropPrefix? "  <Node Id=" line)
  return name

/-- The two ends that a line links. -/
def linkEnds? (line : String) : Option Edge := do
  let (source, rest) ← readValue? (← dropPrefix? "  <Link Source=" line)
  let (target, _) ← readValue? (← dropPrefix? " Target=" rest)
  return (source, target)

/-- The nodes that a text declares, line by line. -/
def nodeIds (text : String) : List String := (split "\n" text).filterMap nodeId?

/-- The ends of the links of a text, line by line. -/
def linkEnds (text : String) : List Edge := (split "\n" text).filterMap linkEnds?

/-! ## Elements are read back -/

namespace DgmlElement

/-- The node that an element declares. -/
def declared? : DgmlElement → Option String
  | node name _ => some name
  | link _ _ _ => none

/-- The two ends that an element links. -/
def linked? : DgmlElement → Option Edge
  | node _ _ => none
  | link source target _ => some (source, target)

theorem text_node (name : String) (isGroup : Bool) :
    (node name isGroup).text = "  <Node Id=" ++ (attributeText name ++ (" Label=" ++
      (attributeText name ++ ((if isGroup then " Group=\"Collapsed\"" else "") ++ "/>")))) := by
  unfold text
  simp only [String.append_assoc]

theorem text_link (source target : String) (isContainment : Bool) :
    (link source target isContainment).text = "  <Link Source=" ++ (attributeText source ++
      (" Target=" ++ (attributeText target ++
        ((if isContainment then " Category=\"Contains\"" else "") ++ " />")))) := by
  unfold text
  simp only [String.append_assoc]

theorem nodeId?_text (x : DgmlElement) : nodeId? x.text = x.declared? := by
  cases x with
  | node name isGroup =>
    have hstart (rest : String) : dropPrefix? "  <Node Id=" ("  <Node Id=" ++ rest) = some rest :=
      dropPrefix?_eq_some_iff.2 rfl
    simp [nodeId?, text_node, hstart, readValue?_attributeText, declared?]
  | link source target isContainment =>
    have hstart (rest : String) : dropPrefix? "  <Node Id=" ("  <Link Source=" ++ rest) = none := by
      simp [dropPrefix?, List.isPrefixOf?]
    simp [nodeId?, text_link, hstart, declared?]

theorem linkEnds?_text (x : DgmlElement) : linkEnds? x.text = x.linked? := by
  cases x with
  | node name isGroup =>
    have hstart (rest : String) : dropPrefix? "  <Link Source=" ("  <Node Id=" ++ rest) = none := by
      simp [dropPrefix?, List.isPrefixOf?]
    simp [linkEnds?, text_node, hstart, linked?]
  | link source target isContainment =>
    have hstart (rest : String) :
        dropPrefix? "  <Link Source=" ("  <Link Source=" ++ rest) = some rest :=
      dropPrefix?_eq_some_iff.2 rfl
    have htarget (rest : String) : dropPrefix? " Target=" (" Target=" ++ rest) = some rest :=
      dropPrefix?_eq_some_iff.2 rfl
    simp [linkEnds?, text_link, hstart, htarget, readValue?_attributeText, linked?]

theorem lineEnd_not_mem_text {c : Char} (hc : c = '\n' ∨ c = '\r') (x : DgmlElement) :
    c ∉ x.text.toList := by
  have hvalue := lineEnd_not_mem_attributeText hc
  cases x with
  | node name isGroup => rcases hc with rfl | rfl <;> cases isGroup <;> simp [text_node, hvalue]
  | link source target isContainment =>
    rcases hc with rfl | rfl <;> cases isContainment <;> simp [text_link, hvalue]

end DgmlElement

/-- The lines of a written graph. -/
def dgmlLines (d : Diagram) : List String :=
  ["<?xml version=\"1.0\" encoding=\"utf-8\"?>",
      "<DirectedGraph xmlns=\"http://schemas.microsoft.com/vs/2009/dgml\">", "<Nodes>"] ++
    (DgmlElement.nodesOf d).map DgmlElement.text ++ ["</Nodes>", "<Links>"] ++
    (DgmlElement.linksOf d).map DgmlElement.text ++ ["</Links>", "</DirectedGraph>"]

theorem lineEnd_not_mem_dgmlLines {c : Char} (hc : c = '\n' ∨ c = '\r') (d : Diagram) :
    ∀ line ∈ dgmlLines d, c ∉ line.toList := by
  intro line hline
  simp only [dgmlLines, List.mem_append, List.mem_map] at hline
  rcases hline with (((hline | ⟨x, -, rfl⟩) | hline) | ⟨x, -, rfl⟩) | hline
  · revert line; rcases hc with rfl | rfl <;> decide
  · exact x.lineEnd_not_mem_text hc
  · revert line; rcases hc with rfl | rfl <;> decide
  · exact x.lineEnd_not_mem_text hc
  · revert line; rcases hc with rfl | rfl <;> decide

theorem split_dgmlText (d : Diagram) : split "\n" (dgmlText d) = dgmlLines d :=
  split_join (c := '\n') (by decide) (by simp) (lineEnd_not_mem_dgmlLines (.inl rfl) d)

/-- What is read off the lines of a written graph, if the lines around the elements
  are skipped. -/
theorem filterMap_dgmlLines {α : Type} {read : String → Option α} {of : DgmlElement → Option α}
    (hread : ∀ x : DgmlElement, read x.text = of x)
    (hskip : ∀ line ∈ ["<?xml version=\"1.0\" encoding=\"utf-8\"?>",
      "<DirectedGraph xmlns=\"http://schemas.microsoft.com/vs/2009/dgml\">", "<Nodes>", "</Nodes>",
      "<Links>", "</Links>", "</DirectedGraph>"], read line = none) (d : Diagram) :
    (dgmlLines d).filterMap read =
      (DgmlElement.nodesOf d).filterMap of ++ (DgmlElement.linksOf d).filterMap of := by
  simp only [List.forall_mem_cons, List.not_mem_nil, false_imp_iff, implies_true, and_true] at hskip
  simp [dgmlLines, List.filterMap_append, List.filterMap_map, hread, hskip]

/-! ## The nodes and links of a graph -/

/-- The names that contain others. -/
def groupNames (d : Diagram) : List String := (d.containsEdges.map Prod.fst).eraseDups

/-- The names that a written graph declares. -/
def declaredNames (d : Diagram) : List String :=
  groupNames d ++ (Containment.endpoints d.edges).eraseDups.filter (· ∉ groupNames d)

theorem filterMap_declared?_nodesOf (d : Diagram) :
    (DgmlElement.nodesOf d).filterMap DgmlElement.declared? = declaredNames d := by
  unfold DgmlElement.nodesOf
  rw [List.filterMap_append, List.filterMap_map, List.filterMap_map]
  exact congrArg₂ (· ++ ·) List.filterMap_some List.filterMap_some

theorem nodeIds_dgmlText (d : Diagram) : nodeIds (dgmlText d) = declaredNames d := by
  rw [nodeIds, split_dgmlText, filterMap_dgmlLines DgmlElement.nodeId?_text (by decide +kernel),
    filterMap_declared?_nodesOf]
  simp [DgmlElement.linksOf, DgmlElement.declared?, List.filterMap_map, Function.comp_def]

theorem linkEnds_dgmlText (d : Diagram) :
    linkEnds (dgmlText d) = d.containsEdges ++ d.edges := by
  rw [linkEnds, split_dgmlText, filterMap_dgmlLines DgmlElement.linkEnds?_text (by decide +kernel)]
  simp [DgmlElement.nodesOf, DgmlElement.linksOf, DgmlElement.linked?, List.filterMap_map,
    Function.comp_def]

theorem nodup_declaredNames (d : Diagram) : (declaredNames d).Nodup := by
  refine List.nodup_append.2 ⟨nodup_eraseDups _, (nodup_eraseDups _).filter _, ?_⟩
  rintro a ha b hb rfl
  exact of_decide_eq_true (List.mem_filter.1 hb).2 ha

theorem mem_declaredNames {d : Diagram} {name : String} :
    name ∈ declaredNames d ↔
      name ∈ d.containsEdges.map Prod.fst ∨ name ∈ Containment.endpoints d.edges := by
  rw [declaredNames, List.mem_append, List.mem_filter, decide_eq_true_eq, groupNames,
    List.mem_eraseDups, List.mem_eraseDups]
  tauto

/-- Both ends of a link are declared, if what is contained is touched by an edge or
  contains something. -/
theorem ends_mem_declaredNames {d : Diagram}
    (h : Containment.Anchored (Containment.endpoints d.edges) d.containsEdges) {e : Edge}
    (he : e ∈ d.containsEdges ++ d.edges) : e.1 ∈ declaredNames d ∧ e.2 ∈ declaredNames d := by
  simp only [mem_declaredNames]
  rcases List.mem_append.1 he with he | he
  · exact ⟨.inl (List.mem_map_of_mem he), (h.child e.2 (List.mem_map_of_mem he)).symm⟩
  · exact ⟨.inr (List.mem_flatMap.2 ⟨e, he, by simp⟩), .inr (List.mem_flatMap.2 ⟨e, he, by simp⟩)⟩

/-- The containment of a graph that is made leads to names that edges touch or that
  contain something. -/
theorem Diagram.MadeFrom.anchored {s : Survey} {o : DiagramOptions} {d : Diagram}
    (h : Diagram.MadeFrom s o d) :
    Containment.Anchored (Containment.endpoints d.edges) d.containsEdges := by
  rw [h.containsEdges, h.contains]
  exact Containment.anchored_collapse (Containment.anchored_edges_ofNames _ _) _ _

/-- **Every link of a written graph leads between declared nodes**: if something
  separates segments, a graph is made; the links that are read off its text are its
  containment and its edges, no node is declared twice, and the source and the target
  of every link are each declared by one node. -/
theorem dgml_declares_ends (s : Survey) (o : DiagramOptions) (hsep : (select s o.byPaths).2 ≠ "") :
    ∃ d, Diagram.build? s o = some d ∧
      linkEnds (dgmlText d) = d.containsEdges ++ d.edges ∧
      (nodeIds (dgmlText d)).Nodup ∧
      ∀ e ∈ linkEnds (dgmlText d),
        (nodeIds (dgmlText d)).count e.1 = 1 ∧ (nodeIds (dgmlText d)).count e.2 = 1 := by
  obtain ⟨d, hd, -⟩ := Diagram.exists_build? hsep
  have hnodup := nodup_declaredNames d
  refine ⟨d, hd, linkEnds_dgmlText d, by rwa [nodeIds_dgmlText], fun e he => ?_⟩
  rw [linkEnds_dgmlText] at he
  obtain ⟨hsource, htarget⟩ :=
    ends_mem_declaredNames (Diagram.madeFrom_of_build? hd).anchored he
  rw [nodeIds_dgmlText]
  exact ⟨List.count_eq_one_of_mem hnodup hsource, List.count_eq_one_of_mem hnodup htarget⟩

/-- Two files of a folder with a quote in its name, one of which refers to a library;
  every other folder has one entry only. -/
def quotedFolder : Survey :=
  { Survey.empty "/" with
    paths := OrderedMap.ofList [("a/b\"/x", ["a/b\"/y", "lib/z"]), ("a/b\"/y", [])] }

theorem dgml_declares_ends_quotedFolder :
    (select quotedFolder false).2 ≠ "" ∧
      ∃ d, Diagram.build? quotedFolder {} = some d ∧
        linkEnds (dgmlText d) = [("a/b\"", "a/b\"/x"), ("a/b\"", "a/b\"/y"),
          ("a/b\"/x", "a/b\"/y"), ("a/b\"/x", "*external*/lib/z")] ∧
        (nodeIds (dgmlText d)).Nodup ∧
        ∀ e ∈ linkEnds (dgmlText d),
          (nodeIds (dgmlText d)).count e.1 = 1 ∧ (nodeIds (dgmlText d)).count e.2 = 1 := by
  have hsep : (select quotedFolder false).2 ≠ "" := by decide
  obtain ⟨d, hd, hlinks, hnodup, hends⟩ := dgml_declares_ends quotedFolder {} hsep
  have hedges : (Diagram.build? quotedFolder {}).map (fun d => d.containsEdges ++ d.edges) =
      some [("a/b\"", "a/b\"/x"), ("a/b\"", "a/b\"/y"), ("a/b\"/x", "a/b\"/y"),
        ("a/b\"/x", "*external*/lib/z")] := by decide +kernel
  rw [hd, Option.map_some, Option.some.injEq] at hedges
  exact ⟨hsep, d, hd, hlinks.trans hedges, hnodup, hends⟩

end DepGraph
