/-
  DepGraph — a written graph is a document.

  Read as XML, a written graph is one tree: the nodes and then the links, each of them an
  element without children, with line ends and blanks between them.  Values of attributes
  are read as the names that were written, so the links are read with their ends.

  * `DgmlElement.attributes`, `documentOf`: the tree of a graph.
  * `run_lines`: how a reader takes elements one after the other.
  * `read?_dgmlText`: a graph is read as its tree.
  * `isSome_read?_dgmlText_iff`: it can be read just if all characters of its names are
    legal.
  * `dgml_links_read_back`: the links of a written graph.
-/
import DepGraph.Proofs.Export.Dgml
import DepGraph.Proofs.Json.LineEnds
import DepGraph.Proofs.Xml.Tags

namespace DepGraph

open DepGraph.Text DepGraph.Xml

/-! ## Lines -/

/-- Lines, each of them after a line feed. -/
def afterNewlines (lines : List String) : List Char := lines.flatMap fun l => '\n' :: l.toList

theorem afterNewlines_append (lines more : List String) :
    afterNewlines (lines ++ more) = afterNewlines lines ++ afterNewlines more :=
  List.flatMap_append

theorem toList_join_newline (line : String) (rest : List String) :
    (join "\n" (line :: rest)).toList = line.toList ++ afterNewlines rest := by
  induction rest generalizing line with
  | nil => simp [join, String.intercalate_singleton, afterNewlines]
  | cons second rest ih =>
    have hnewline : "\n".toList = ['\n'] := rfl
    rw [join_cons (List.cons_ne_nil _ _), String.toList_append, String.toList_append, ih, hnewline,
      afterNewlines, afterNewlines, List.flatMap_cons, List.append_assoc, List.singleton_append,
      List.cons_append]

/-! ## Elements -/

namespace DgmlElement

/-- The name in the tag of an element. -/
def tagName : DgmlElement → String
  | node _ _ => "Node"
  | link _ _ _ => "Link"

/-- The attributes of an element. -/
def attributes : DgmlElement → List (String × String)
  | node name isGroup =>
    [("Id", name), ("Label", name)] ++ if isGroup then [("Group", "Collapsed")] else []
  | link source target isContainment =>
    [("Source", source), ("Target", target)] ++
      if isContainment then [("Category", "Contains")] else []

/-- The tag of an element as it is read. -/
def tag (x : DgmlElement) : String × List (String × String) := (x.tagName, x.attributes)

/-- The end of the tag of an element. -/
def ending : DgmlElement → String
  | node _ _ => "/>"
  | link _ _ _ => " />"

/-- The names that an element holds. -/
def names : DgmlElement → List String
  | node name _ => [name]
  | link source target _ => [source, target]

theorem toList_text (x : DgmlElement) :
    x.text.toList = "  <".toList ++
      (x.tagName.toList ++ (Reader.written x.attributes ++ x.ending.toList)) := by
  have hcollapsed : attributeText "Collapsed" = "\"Collapsed\"" :=
    attributeText_of_plain (by decide)
  have hcontains : attributeText "Contains" = "\"Contains\"" :=
    attributeText_of_plain (by decide)
  cases x with
  | node name isGroup =>
    cases isGroup <;> simp [text_node, tagName, attributes, ending, Reader.written, hcollapsed]
  | link source target isContainment =>
    cases isContainment <;>
      simp [text_link, tagName, attributes, ending, Reader.written, hcontains]

theorem isName_tagName (x : DgmlElement) : isName x.tagName = true := by
  have hnode : isName "Node" = true := by decide
  have hlink : isName "Link" = true := by decide
  cases x with
  | node name isGroup => exact hnode
  | link source target isContainment => exact hlink

/-- The attributes have names, and no two have the same. -/
theorem names_attributes (x : DgmlElement) :
    (∀ a ∈ x.attributes, isName a.1 = true) ∧ (x.attributes.map Prod.fst).Nodup := by
  have hnames (names : List String) (attributes : List (String × String))
      (hmap : attributes.map Prod.fst = names) (hname : ∀ s ∈ names, isName s = true)
      (hnodup : names.Nodup) :
      (∀ a ∈ attributes, isName a.1 = true) ∧ (attributes.map Prod.fst).Nodup :=
    ⟨fun a ha => hname _ (hmap ▸ List.mem_map_of_mem ha), hmap ▸ hnodup⟩
  cases x with
  | node name isGroup =>
    cases isGroup with
    | false => exact hnames ["Id", "Label"] _ rfl (by decide) (by decide)
    | true => exact hnames ["Id", "Label", "Group"] _ rfl (by decide) (by decide)
  | link source target isContainment =>
    cases isContainment with
    | false => exact hnames ["Source", "Target"] _ rfl (by decide) (by decide)
    | true => exact hnames ["Source", "Target", "Category"] _ rfl (by decide) (by decide)

theorem attributes_legal {x : DgmlElement} (h : ∀ name ∈ x.names, IsLegalText name) :
    ∀ a ∈ x.attributes, IsLegalText a.2 := by
  have hcollapsed : IsLegalText "Collapsed" := by decide
  have hcontains : IsLegalText "Contains" := by decide
  cases x with
  | node name isGroup => cases isGroup <;> simp_all [attributes, names]
  | link source target isContainment => cases isContainment <;> simp_all [attributes, names]

/-- The parts of a document that elements make: each of them on a line of its own. -/
def parts (elements : List DgmlElement) : List Node :=
  elements.flatMap fun x => [.text "\n  ", .element x.tagName x.attributes []]

section
variable {f : Frame} {frames : List Frame} {root : Option Node}

/-- An element on a line of its own. -/
theorem run_line {x : DgmlElement} (h : ∀ name ∈ x.names, IsLegalText name) :
    Reader.run ⟨.content [] 0, f :: frames, root⟩ ('\n' :: x.text.toList) =
      some ⟨.content [] 0, { f with
        children := .element x.tagName x.attributes [] :: .text "\n  " :: f.children } :: frames,
        root⟩ := by
  obtain ⟨hnames, hnodup⟩ := x.names_attributes
  have hopen : Reader.run ⟨.content [] 0, f :: frames, root⟩ ('\n' :: "  <".toList) =
      some ⟨.markup false, { f with children := .text "\n  " :: f.children } :: frames, root⟩ := rfl
  have hending : x.ending = "/>" ∨ x.ending = " />" := by
    cases x with
    | node name isGroup => exact .inl rfl
    | link source target isContainment => exact .inr rfl
  rw [toList_text, ← List.cons_append, Reader.run_append_of_run hopen,
    Reader.run_emptyElement x.isName_tagName hnames hnodup (attributes_legal h) hending]

/-- Elements one after the other. -/
theorem run_lines {elements : List DgmlElement}
    (h : ∀ x ∈ elements, ∀ name ∈ x.names, IsLegalText name) :
    Reader.run ⟨.content [] 0, f :: frames, root⟩
        (afterNewlines (elements.map text)) =
      some ⟨.content [] 0,
        { f with children := (parts elements).reverse ++ f.children } :: frames, root⟩ := by
  induction elements generalizing f with
  | nil => rfl
  | cons x rest ih =>
    obtain ⟨hx, hrest⟩ := List.forall_mem_cons.1 h
    rw [List.map_cons, afterNewlines, List.flatMap_cons, Reader.run_append_of_run (run_line hx),
      ← afterNewlines, ih hrest]
    simp [parts]

end

/-- What is read of elements. -/
theorem elements_parts (elements : List DgmlElement) (rest : List Node) :
    Node.elements.go (parts elements ++ rest) =
      elements.map tag ++ Node.elements.go rest := by
  induction elements with
  | nil => rfl
  | cons x more ih => exact congrArg (x.tag :: ·) ih

end DgmlElement

/-! ## Documents -/

/-- The attributes of the root of a written graph. -/
def rootAttributes : List (String × String) :=
  [("xmlns", "http://schemas.microsoft.com/vs/2009/dgml")]

/-- What a written graph is read as. -/
def documentOf (d : Diagram) : Node :=
  .element "DirectedGraph" rootAttributes
    [.text "\n",
      .element "Nodes" [] (DgmlElement.parts (DgmlElement.nodesOf d) ++ [.text "\n"]),
      .text "\n",
      .element "Links" [] (DgmlElement.parts (DgmlElement.linksOf d) ++ [.text "\n"]),
      .text "\n"]

/-- The tag of the root. -/
def rootTag : String := "<DirectedGraph xmlns=\"http://schemas.microsoft.com/vs/2009/dgml\">"

theorem toList_dgmlText (d : Diagram) :
    (dgmlText d).toList = "<?xml version=\"1.0\" encoding=\"utf-8\"?>".toList ++
      (afterNewlines [rootTag, "<Nodes>"] ++
        (afterNewlines ((DgmlElement.nodesOf d).map DgmlElement.text) ++
          (afterNewlines ["</Nodes>", "<Links>"] ++
            (afterNewlines ((DgmlElement.linksOf d).map DgmlElement.text) ++
              afterNewlines ["</Links>", "</DirectedGraph>"])))) := by
  simp only [← afterNewlines_append, ← toList_join_newline]
  simp only [dgmlText, rootTag, List.cons_append, List.nil_append, List.append_assoc]

theorem return_not_mem_dgmlText (d : Diagram) : '\r' ∉ (dgmlText d).toList :=
  (not_mem_join_iff (c := '\n') (by decide) (by decide)).2
    (lineEnd_not_mem_dgmlLines (.inr rfl) d)

/-- Every name in an element is one that is linked. -/
theorem names_subset {d : Diagram} {x : DgmlElement}
    (hx : x ∈ DgmlElement.nodesOf d ++ DgmlElement.linksOf d) :
    ∀ name ∈ x.names, name ∈ Containment.endpoints (d.containsEdges ++ d.edges) := by
  have hends {e : Edge} (he : e ∈ d.containsEdges ++ d.edges) :
      ∀ name ∈ [e.1, e.2], name ∈ Containment.endpoints (d.containsEdges ++ d.edges) :=
    fun name hname => List.mem_flatMap.2 ⟨e, he, hname⟩
  simp only [DgmlElement.nodesOf, DgmlElement.linksOf, List.mem_append, List.mem_map,
    List.mem_eraseDups, List.mem_filter] at hx
  rcases hx with (⟨group, ⟨e, he, rfl⟩, rfl⟩ | ⟨name, ⟨hname, -⟩, rfl⟩) |
    (⟨e, he, rfl⟩ | ⟨e, he, rfl⟩)
  · exact List.forall_mem_singleton.2
      (hends (List.mem_append_left _ he) e.1 List.mem_cons_self)
  · obtain ⟨e, he, hmem⟩ := List.mem_flatMap.1 hname
    exact List.forall_mem_singleton.2 (hends (List.mem_append_right _ he) name hmem)
  · exact hends (List.mem_append_left _ he)
  · exact hends (List.mem_append_right _ he)

/-- The root and the list of nodes are opened. -/
theorem run_rootTag :
    Reader.run ⟨.content [] 0, [], none⟩ (afterNewlines [rootTag, "<Nodes>"]) =
      some ⟨.content [] 0, [⟨"Nodes", [], []⟩, ⟨"DirectedGraph", rootAttributes, [.text "\n"]⟩],
        none⟩ := by
  have hname : isName "DirectedGraph" = true := by decide
  have hnames : ∀ a ∈ rootAttributes, isName a.1 = true := by decide
  have hvalues : ∀ a ∈ rootAttributes, IsLegalText a.2 := by decide
  have hvalue : attributeText "http://schemas.microsoft.com/vs/2009/dgml" =
      "\"http://schemas.microsoft.com/vs/2009/dgml\"" := attributeText_of_plain (by decide)
  have htext : afterNewlines [rootTag, "<Nodes>"] = ['\n', '<'] ++ (("DirectedGraph".toList ++
      (Reader.written rootAttributes ++ ['>'])) ++ ('\n' :: "<Nodes>".toList)) := by
    simp only [Reader.written, rootAttributes, List.flatMap_cons, List.flatMap_nil, hvalue]
    rfl
  have hopen : Reader.run ⟨.content [] 0, [], none⟩ ['\n', '<'] = some ⟨.markup false, [], none⟩ :=
    rfl
  rw [htext, Reader.run_append_of_run hopen,
    Reader.run_append_of_run (Reader.run_startTag hname hnames (by decide) hvalues)]
  rfl

/-- The list of nodes is closed, and that of links is opened. -/
theorem run_between (nodes : List Node) (f : Frame) :
    Reader.run ⟨.content [] 0, [⟨"Nodes", [], nodes⟩, f], none⟩
        (afterNewlines ["</Nodes>", "<Links>"]) =
      some ⟨.content [] 0, [⟨"Links", [], []⟩, ⟨f.name, f.attributes, .text "\n" ::
        .element "Nodes" [] (.text "\n" :: nodes).reverse :: f.children⟩], none⟩ := rfl

/-- The list of links and the root are closed. -/
theorem run_closing (links : List Node) (attributes : List (String × String))
    (children : List Node) :
    Reader.run ⟨.content [] 0, [⟨"Links", [], links⟩, ⟨"DirectedGraph", attributes, children⟩],
        none⟩ (afterNewlines ["</Links>", "</DirectedGraph>"]) =
      some ⟨.content [] 0, [], some (.element "DirectedGraph" attributes (.text "\n" ::
        .element "Links" [] (.text "\n" :: links).reverse :: children).reverse)⟩ := rfl

/-- **A written graph is read as its tree**, if its names can be read at all. -/
theorem read?_dgmlText {d : Diagram}
    (h : ∀ name ∈ Containment.endpoints (d.containsEdges ++ d.edges), IsLegalText name) :
    read? (dgmlText d).toList = some (documentOf d) := by
  have hlegal : ∀ x ∈ DgmlElement.nodesOf d ++ DgmlElement.linksOf d,
      ∀ name ∈ x.names, IsLegalText name :=
    fun x hx name hname => h name (names_subset hx name hname)
  obtain ⟨hnodes, hlinks⟩ := List.forall_mem_append.1 hlegal
  have hdeclared : Reader.start.run "<?xml version=\"1.0\" encoding=\"utf-8\"?>".toList =
      some ⟨.content [] 0, [], none⟩ := rfl
  rw [read?, foldNewlines_eq_self (return_not_mem_dgmlText d), toList_dgmlText,
    Reader.run_append_of_run hdeclared, Reader.run_append_of_run run_rootTag,
    Reader.run_append_of_run (DgmlElement.run_lines hnodes),
    Reader.run_append_of_run (run_between _ _),
    Reader.run_append_of_run (DgmlElement.run_lines hlinks), run_closing]
  simp [Reader.finish, documentOf]

/-- A character that may not occur is written for itself. -/
theorem mem_attributeText {s : String} {c : Char} (hc : c ∈ s.toList) (h : isLegal c = false) :
    c ∈ (attributeText s).toList := by
  have hchar : c ∈ (attributeChar c).toList := by
    unfold attributeChar
    split
    · exact absurd h (by decide)
    · exact absurd h (by decide)
    · exact absurd h (by decide)
    · exact absurd h (by decide)
    · exact absurd h (by decide)
    · exact absurd h (by decide)
    · simp
  have hdouble : c ∈ doubleQuotedChar c := by
    have hne : c ≠ '"' := by rintro rfl; exact absurd h (by decide)
    rwa [doubleQuotedChar, if_neg hne]
  have hescaped : c ∈ (escapedText s).toList := by
    rw [toList_escapedText]
    exact List.mem_flatMap.2 ⟨c, hc, hchar⟩
  have hreplaced : c ∈ s.toList.flatMap doubleQuotedChar := List.mem_flatMap.2 ⟨c, hc, hdouble⟩
  unfold attributeText
  simp only [apply_ite String.toList, String.toList_append, toList_replaceAll_escapedText]
  split
  · simp [hescaped]
  · split
    · simp [hreplaced]
    · simp [hescaped]

/-- **A graph can be read iff its names can**: a character that may not occur stands in the
  text wherever it stands in a name. -/
theorem isSome_read?_dgmlText_iff (d : Diagram) :
    (read? (dgmlText d).toList).isSome = true ↔
      ∀ name ∈ Containment.endpoints (d.containsEdges ++ d.edges), IsLegalText name := by
  refine ⟨fun hsome name hname c hc => ?_, fun h => by rw [read?_dgmlText h]; rfl⟩
  by_contra hillegal
  rw [Bool.not_eq_true] at hillegal
  -- the name stands in a link
  obtain ⟨x, hx, hmem⟩ : ∃ x ∈ DgmlElement.linksOf d, c ∈ x.text.toList := by
    have hvalue := mem_attributeText hc hillegal
    obtain ⟨e, he, hend⟩ := List.mem_flatMap.1 hname
    have hlink (isContainment : Bool) :
        c ∈ (DgmlElement.link e.1 e.2 isContainment).text.toList := by
      rcases List.mem_pair.1 hend with rfl | rfl
      · simp [DgmlElement.text_link, hvalue]
      · simp [DgmlElement.text_link, hvalue]
    rcases List.mem_append.1 he with he | he
    · exact ⟨_, List.mem_append_left _ (List.mem_map_of_mem he), hlink true⟩
    · exact ⟨_, List.mem_append_right _ (List.mem_map_of_mem he), hlink false⟩
  have htext : c ∈ (dgmlText d).toList := by
    have hline : c ∈ afterNewlines ((DgmlElement.linksOf d).map DgmlElement.text) :=
      List.mem_flatMap.2 ⟨x.text, List.mem_map_of_mem hx, List.mem_cons_of_mem _ hmem⟩
    rw [toList_dgmlText]
    simp [hline]
  rw [read?, foldNewlines_eq_self (return_not_mem_dgmlText d),
    Reader.run_eq_none hillegal htext] at hsome
  cases hsome

/-! ## Links -/

/-- A tag is that of a link, and it is of the category of containment or not. -/
def isLink (isContainment : Bool) (tag : String × List (String × String)) : Bool :=
  tag.1 == "Link" && (tag.2.lookup "Category" == some "Contains") == isContainment

/-- The ends of the links of a document, of those that are containment or of the others, in
  the order in which they stand. -/
def linksIn (isContainment : Bool) (root : Node) : List (Option String × Option String) :=
  (root.elements.filter (isLink isContainment)).map fun tag =>
    (tag.2.lookup "Source", tag.2.lookup "Target")

theorem elements_documentOf (d : Diagram) :
    (documentOf d).elements = ("DirectedGraph", rootAttributes) :: ("Nodes", []) ::
      ((DgmlElement.nodesOf d).map DgmlElement.tag ++ ("Links", []) ::
        (DgmlElement.linksOf d).map DgmlElement.tag) := by
  simp only [documentOf, Node.elements, Node.elements.go, DgmlElement.elements_parts]
  simp

theorem filter_nodesOf (isContainment : Bool) (d : Diagram) :
    ((DgmlElement.nodesOf d).map DgmlElement.tag).filter (isLink isContainment) = [] := by
  have hnode (name : String) (isGroup : Bool) :
      isLink isContainment (DgmlElement.node name isGroup).tag = false := rfl
  simp [DgmlElement.nodesOf, List.filter_map, Function.comp_def, hnode]

theorem filter_linksOf (isContainment : Bool) (d : Diagram) :
    ((DgmlElement.linksOf d).map DgmlElement.tag).filter (isLink isContainment) =
      (if isContainment then d.containsEdges else d.edges).map fun e =>
        (DgmlElement.link e.1 e.2 isContainment).tag := by
  have hlink (source target : String) (b : Bool) :
      isLink isContainment (DgmlElement.link source target b).tag = (b == isContainment) := by
    cases b <;> rfl
  cases isContainment with
  | false => simp [DgmlElement.linksOf, List.filter_map, Function.comp_def, hlink]
  | true => simp [DgmlElement.linksOf, List.filter_map, Function.comp_def, hlink]

theorem linksIn_documentOf (isContainment : Bool) (d : Diagram) :
    linksIn isContainment (documentOf d) =
      (if isContainment then d.containsEdges else d.edges).map fun e => (some e.1, some e.2) := by
  have hroot : isLink isContainment ("DirectedGraph", rootAttributes) = false := rfl
  have hnodes : isLink isContainment ("Nodes", []) = false := rfl
  have hlinks : isLink isContainment ("Links", []) = false := rfl
  rw [linksIn, elements_documentOf, List.filter_cons_of_neg (by simp [hroot]),
    List.filter_cons_of_neg (by simp [hnodes]), List.filter_append, filter_nodesOf,
    List.nil_append, List.filter_cons_of_neg (by simp [hlinks]), filter_linksOf, List.map_map]
  rfl

/-- **The links of a written graph are read back.**  If all names consist of characters that
  may occur in a document, the text of a graph is a well-formed document; its links of the
  category of containment are the containment of the graph, its other links are the edges
  of the graph, in order and with the exact names. -/
theorem dgml_links_read_back (d : Diagram)
    (h : ∀ name ∈ Containment.endpoints (d.containsEdges ++ d.edges), IsLegalText name) :
    ∃ root, read? (dgmlText d).toList = some root ∧
      linksIn true root = d.containsEdges.map (fun e => (some e.1, some e.2)) ∧
      linksIn false root = d.edges.map (fun e => (some e.1, some e.2)) :=
  ⟨documentOf d, read?_dgmlText h, linksIn_documentOf true d, linksIn_documentOf false d⟩

/-- A graph between names with quotes of both kinds, markup and white space. -/
def awkwardNames : Diagram :=
  { (default : Diagram) with
    containsEdges := [("a \"b\"", "a \"b\"/<'&\t\">")]
    edges := [("a \"b\"/<'&\t\">", "]]>\r\n&#9;"), ("]]>\r\n&#9;", "it's")] }

theorem dgml_links_read_back_awkwardNames :
    (∀ name ∈ Containment.endpoints (awkwardNames.containsEdges ++ awkwardNames.edges),
      IsLegalText name) ∧
    ∃ root, read? (dgmlText awkwardNames).toList = some root ∧
      linksIn true root = [(some "a \"b\"", some "a \"b\"/<'&\t\">")] ∧
      linksIn false root = [(some "a \"b\"/<'&\t\">", some "]]>\r\n&#9;"),
        (some "]]>\r\n&#9;", some "it's")] := by
  have hlegal : ∀ name ∈ Containment.endpoints (awkwardNames.containsEdges ++ awkwardNames.edges),
      IsLegalText name := by decide +kernel
  exact ⟨hlegal, dgml_links_read_back awkwardNames hlegal⟩

end DepGraph
