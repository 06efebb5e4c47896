/-
  DepGraph — the page of a graph.

  The nodes are put in the place of their placeholder, and then the edges in the place of
  theirs, wherever it stands by then.  In the page around the data it stands once.  In
  the nodes it stands iff it is a part of a name, as what is written beside the names and
  for their characters shares no character with it.

  * `isForeign`: characters that are not in the placeholder of the edges.
  * `placeholder_infix_pageNodes_iff`: where it occurs in the nodes.
  * `exists_pageTemplate_eq`, `count_underscore_pageTemplate`: the page around the data.
  * `pageText_eq`: the page of a graph.
  * `pageText_eq_iff`: when it is the page around the data with the nodes and the edges
    in it.
  * `pageText_ne_placeholderName`: a file that is named like the placeholder.
-/
import DepGraph.Containment.Collapse
import DepGraph.Proofs.Export.Script

namespace DepGraph

open DepGraph.Json DepGraph.Text

/-! ## The placeholder within the nodes -/

/-- A character that is not in the placeholder of the edges. -/
def isForeign (c : Char) : Bool := c ∉ "__EDGES".toList

theorem isForeign_hexDigit (n : Nat) : isForeign (hexDigit n) = true := by
  have hdigits : ∀ d < 16, isForeign (hexDigit d) = true := by decide +kernel
  have hmod : hexDigit n = hexDigit (n % 16) := by
    unfold hexDigit
    rw [Nat.mod_mod]
  rw [hmod]
  exact hdigits _ (Nat.mod_lt n (by decide))

theorem isForeign_unicodeEscape (n : Nat) : ∀ d ∈ unicodeEscape n, isForeign d = true := by
  have hback : isForeign '\\' = true := by decide
  have hu : isForeign 'u' = true := by decide
  simp [unicodeEscape, hexDigits, isForeign_hexDigit, hback, hu]

/-- The characters of the placeholder are written for themselves. -/
theorem escapedChar_of_placeholder {c : Char} (h : isForeign c = false) :
    escapedChar true c = [c] := by
  have hall : ∀ c ∈ "__EDGES".toList, escapedChar true c = [c] := by decide
  exact hall c (of_not_not (decide_eq_false_iff_not.1 h))

/-- No other character is written with them. -/
theorem isForeign_escapedChar {c : Char} (h : isForeign c = true) :
    escapedChar true c ≠ [] ∧ ∀ d ∈ escapedChar true c, isForeign d = true := by
  have hescape (n : Nat) :
      unicodeEscape n ≠ [] ∧ ∀ d ∈ unicodeEscape n, isForeign d = true :=
    ⟨List.cons_ne_nil _ _, isForeign_unicodeEscape n⟩
  unfold escapedChar
  split
  · decide
  · decide
  · decide
  · decide
  · decide
  · decide
  · decide
  · dsimp only
    split
    · exact hescape _
    · split
      · split
        · exact hescape _
        · exact ⟨List.append_ne_nil_of_left_ne_nil (hescape _).1 _,
            List.forall_mem_append.2 ⟨(hescape _).2, (hescape _).2⟩⟩
      · exact ⟨List.cons_ne_nil _ _, by simpa using h⟩

/-- The backslashes that keep a script from ending do not change the runs. -/
theorem runsOutside_shielded {p : Char → Bool} (hless : p '<' = true) (hback : p '\\' = true)
    (hslash : p '/' = true) (run s : List Char) :
    runsOutside p run (shielded s) = runsOutside p run s := by
  fun_induction shielded s generalizing run with
  | case1 rest ih => simp [runsOutside, hless, hback, hslash, ih]
  | case2 c rest _ ih => simp [runsOutside, ih]
  | case3 => rfl

/-- The runs of a text of which a placeholder could be made. -/
def placeholderRuns (s : List Char) : List (List Char) := runsOutside isForeign [] s

theorem placeholder_infix_iff (s : List Char) :
    "__EDGES".toList <:+: s ↔ ∃ w ∈ placeholderRuns s, "__EDGES".toList <:+: w := by
  have hown : ∀ c ∈ "__EDGES".toList, isForeign c = false := by decide
  have h := infix_iff_exists_run (by decide) hown [] s
  rwa [List.reverse_nil, List.nil_append] at h

theorem placeholderRuns_drop {l : List Char} (hl : ∀ c ∈ l, isForeign c = true) (s : List Char) :
    placeholderRuns (l ++ s) = placeholderRuns s := runsOutside_drop hl s

theorem placeholderRuns_between {l : List Char} (hne : l ≠ []) (hl : ∀ c ∈ l, isForeign c = true)
    (a b : List Char) :
    placeholderRuns (a ++ (l ++ b)) = placeholderRuns a ++ placeholderRuns b :=
  runsOutside_between hne hl a b

theorem placeholderRuns_renderString (name : String) :
    placeholderRuns (renderString true name) = placeholderRuns name.toList := by
  have hquote : ∀ c ∈ ['"'], isForeign c = true := by decide
  have htext : renderString true name =
      ['"'] ++ (name.toList.flatMap (escapedChar true) ++ (['"'] ++ [])) := by simp [renderString]
  have hname : placeholderRuns (name.toList.flatMap (escapedChar true)) =
      placeholderRuns name.toList :=
    runsOutside_flatMap (fun _ => escapedChar_of_placeholder) (fun _ => isForeign_escapedChar) []
      name.toList
  have hnil : placeholderRuns [] = [] := rfl
  rw [htext, placeholderRuns_drop hquote, placeholderRuns_between (by decide) hquote, hname, hnil,
    List.append_nil]

/-- The text of a node. -/
theorem renderAt_pageNode (depth : Nat) (name : String) :
    renderAt pageStyle depth (pageNode name) =
      "\x7b\"id\": ".toList ++ (renderString true name ++ (", \"label\": ".toList ++
        (renderString true name ++ ", \"shape\": \"box\"\x7d".toList))) := by
  have hid : renderString true "id" = "\"id\"".toList := by decide
  have hlabel : renderString true "label" = "\"label\"".toList := by decide
  have hshape : renderString true "shape" = "\"shape\"".toList := by decide
  have hbox : renderString true "box" = "\"box\"".toList := by decide
  simp [pageNode, pageStyle, renderAt, renderMembers, Spacing.opening, Spacing.closing,
    Spacing.between, Spacing.colon, hid, hlabel, hshape, hbox]

theorem placeholderRuns_pageNode (depth : Nat) (name : String) (more : List Char) :
    placeholderRuns (renderAt pageStyle depth (pageNode name) ++ more) =
      placeholderRuns name.toList ++ placeholderRuns name.toList ++ placeholderRuns more := by
  have hstart : ∀ c ∈ "\x7b\"id\": ".toList, isForeign c = true := by decide
  have hlabel : ∀ c ∈ ", \"label\": ".toList, isForeign c = true := by decide
  have hend : ∀ c ∈ ", \"shape\": \"box\"\x7d".toList, isForeign c = true := by decide
  rw [renderAt_pageNode]
  simp only [List.append_assoc]
  rw [placeholderRuns_drop hstart, placeholderRuns_between (by decide) hlabel,
    placeholderRuns_between (by decide) hend, placeholderRuns_renderString]

theorem placeholderRuns_renderItems (names : List String) :
    placeholderRuns (renderItems pageStyle 0 (names.map pageNode) ++ [']']) =
      names.flatMap fun name => placeholderRuns name.toList ++ placeholderRuns name.toList := by
  induction names with
  | nil => decide
  | cons name rest ih =>
    have hbetween : ∀ c ∈ pageStyle.spacing.between 0, isForeign c = true := by decide
    rw [List.map_cons, renderItems, List.append_assoc, List.append_assoc,
      placeholderRuns_drop hbetween, placeholderRuns_pageNode, ih, List.flatMap_cons]

/-- The runs of the nodes are those of their names. -/
theorem placeholderRuns_nodes (names : List String) :
    placeholderRuns (scriptJson (.array (names.map pageNode))).toList =
      names.flatMap fun name => placeholderRuns name.toList ++ placeholderRuns name.toList := by
  have hshielded (s : List Char) : placeholderRuns (shielded s) = placeholderRuns s :=
    runsOutside_shielded (by decide) (by decide) (by decide) [] s
  rw [toList_scriptJson, hshielded]
  cases names with
  | nil => decide
  | cons name rest =>
    have hopen : ∀ c ∈ ['['], isForeign c = true := by decide
    have htext : renderAt pageStyle 0 (.array ((name :: rest).map pageNode)) =
        ['['] ++ (renderAt pageStyle 1 (pageNode name) ++
          (renderItems pageStyle 0 (rest.map pageNode) ++ [']'])) := by
      simp [renderAt, pageStyle, Spacing.opening, Spacing.closing]
    rw [htext, placeholderRuns_drop hopen, placeholderRuns_pageNode, placeholderRuns_renderItems,
      List.flatMap_cons]

/-- **The placeholder occurs in the nodes iff it occurs in a name.** -/
theorem placeholder_infix_pageNodes_iff (edges : List Edge) :
    "__EDGES".toList <:+: (scriptJson (pageNodes edges)).toList ↔
      ∃ name ∈ Containment.endpoints edges, "__EDGES".toList <:+: name.toList := by
  rw [placeholder_infix_iff, pageNodes, placeholderRuns_nodes]
  simp only [placeholder_infix_iff (String.toList _), List.mem_flatMap, List.mem_append, or_self,
    List.mem_eraseDups]
  constructor
  · rintro ⟨w, ⟨name, hname, hw⟩, h⟩
    exact ⟨name, hname, w, hw, h⟩
  · rintro ⟨name, hname, w, hw, h⟩
    exact ⟨w, ⟨name, hname, hw⟩, h⟩

theorem replaceAll_edges_eq_self_iff (edges : List Edge) :
    replaceAll "__EDGES" (scriptJson (pageEdges edges)) (scriptJson (pageNodes edges)) =
      scriptJson (pageNodes edges) ↔
    ∀ name ∈ Containment.endpoints edges, ¬ "__EDGES".toList <:+: name.toList := by
  have hopen : '[' ∉ "__EDGES".toList := by decide
  have hnew : '[' ∈ (scriptJson (pageEdges edges)).toList := by
    obtain ⟨s, hs⟩ := exists_scriptJson_array (edges.map pageEdge)
    rw [pageEdges, hs]
    exact List.mem_cons_self
  rw [← String.toList_inj, toList_replaceAll_eq, rewritten_eq_self_iff (by decide) hopen hnew,
    placeholder_infix_pageNodes_iff]
  simp only [not_exists, not_and]

/-! ## The page around the data -/

set_option maxRecDepth 100000 in
/-- Underscores stand in the placeholders only. -/
theorem count_underscore_pageTemplate : pageTemplate.toList.count '_' = 4 := by
  have hchars : pageTemplate = String.ofList _ := rfl
  rw [hchars, String.toList_ofList]
  decide +kernel

/-- Two placeholders, each where the next underscore stands, cut a text into three. -/
theorem exists_eq_of_dropWhile {s : List Char}
    (hnodes : (s.dropWhile (· != '_')).take 7 = "__NODES".toList)
    (hedges : (((s.dropWhile (· != '_')).drop 7).dropWhile (· != '_')).take 7 =
      "__EDGES".toList) :
    ∃ head middle tail : String,
      String.ofList s = head ++ "__NODES" ++ middle ++ "__EDGES" ++ tail := by
  have hcut {s part : List Char} (h : (s.dropWhile (· != '_')).take 7 = part) :
      s = s.takeWhile (· != '_') ++ (part ++ (s.dropWhile (· != '_')).drop 7) := by
    rw [← h, List.take_append_drop, List.takeWhile_append_dropWhile]
  generalize hrest : (s.dropWhile (· != '_')).drop 7 = rest at hedges
  have htext := hcut hnodes
  rw [hrest, hcut hedges] at htext
  refine ⟨.ofList (s.takeWhile (· != '_')), .ofList (rest.takeWhile (· != '_')),
    .ofList ((rest.dropWhile (· != '_')).drop 7), String.toList_inj.1 ?_⟩
  simp only [String.toList_append, String.toList_ofList, List.append_assoc]
  exact htext

set_option maxRecDepth 100000 in
theorem exists_pageTemplate_eq : ∃ head middle tail : String,
    pageTemplate = head ++ "__NODES" ++ middle ++ "__EDGES" ++ tail := by
  have hchars : pageTemplate = String.ofList _ := rfl
  rw [hchars]
  exact exists_eq_of_dropWhile (by decide +kernel) (by decide +kernel)

section
variable {head middle tail : String}
  (h : pageTemplate = head ++ "__NODES" ++ middle ++ "__EDGES" ++ tail)
include h

theorem underscore_not_mem_page :
    '_' ∉ head.toList ∧ '_' ∉ middle.toList ∧ '_' ∉ tail.toList := by
  have hcount := count_underscore_pageTemplate
  have hnodes : "__NODES".toList.count '_' = 2 := by decide
  have hedges : "__EDGES".toList.count '_' = 2 := by decide
  rw [h] at hcount
  simp only [String.toList_append, List.count_append, hnodes, hedges] at hcount
  simp only [← List.count_eq_zero]
  omega

theorem toList_pageTemplate : pageTemplate.toList = head.toList ++ ("__NODES".toList ++
    (middle.toList ++ ("__EDGES".toList ++ tail.toList))) := by
  rw [h]
  simp only [String.toList_append, List.append_assoc]

/-- In the page around the data, the nodes take the place of their placeholder. -/
theorem rewritten_pageTemplate (nodes : List Char) :
    rewritten "__NODES".toList nodes pageTemplate.toList =
      head.toList ++ (nodes ++ (middle.toList ++ ("__EDGES".toList ++ tail.toList))) := by
  obtain ⟨hhead, hmiddle, htail⟩ := underscore_not_mem_page h
  have hrest : ¬ "__NODES".toList <:+: "__EDGES".toList ++ tail.toList := by
    -- it would have to end before the `G` or to start after it
    have hg : 'G' ∉ "__NODES".toList := by decide
    have hfront : ¬ "__NODES".toList <:+: "__ED".toList := by decide
    have hcut : "__EDGES".toList ++ tail.toList =
        "__ED".toList ++ 'G' :: ("ES".toList ++ tail.toList) := by simp
    rw [hcut, infix_append_cons_iff (by decide) hg, not_or]
    refine ⟨hfront, fun hocc => ?_⟩
    have hmem : '_' ∈ "ES".toList ++ tail.toList := hocc.subset (by decide)
    exact (List.mem_append.1 hmem).elim (by decide) htail
  rw [toList_pageTemplate h, rewritten_skip rfl hhead, rewritten_append (by decide),
    rewritten_skip rfl hmiddle, rewritten_of_absent hrest]

/-- **The page of a graph**: the edges take the place of their placeholder in the page
  around the data, and wherever it stands in the nodes. -/
theorem pageText_eq (d : Diagram) :
    pageText d = head ++
      replaceAll "__EDGES" (scriptJson (pageEdges d.edges)) (scriptJson (pageNodes d.edges)) ++
      middle ++ scriptJson (pageEdges d.edges) ++ tail := by
  obtain ⟨hhead, hmiddle, htail⟩ := underscore_not_mem_page h
  have hclose : ']' ∉ "__EDGES".toList := by decide
  obtain ⟨nodes, hnodes⟩ : ∃ nodes, (scriptJson (pageNodes d.edges)).toList =
      '[' :: nodes ++ [']'] := exists_scriptJson_array _
  have hrest : ¬ "__EDGES".toList <:+: tail.toList :=
    fun hocc => htail (hocc.subset (by decide))
  refine String.toList_inj.1 ?_
  rw [pageText, toList_replaceAll_eq, toList_replaceAll_eq, rewritten_pageTemplate h,
    rewritten_skip rfl hhead, hnodes, rewritten_concat_append (by decide) hclose,
    rewritten_skip rfl hmiddle, rewritten_append (by decide), rewritten_of_absent hrest,
    ← hnodes, ← toList_replaceAll_eq]
  simp only [String.toList_append, List.append_assoc]

end

/-- **When a page holds exactly its graph**: the page of a graph is the page around the
  data with the edges in the place of their placeholder, and with the nodes in the place
  of theirs in which that of the edges is replaced too.  So it is the page with the nodes
  and the edges in it iff no name holds the placeholder of the edges. -/
theorem pageText_eq_iff {head middle tail : String}
    (h : pageTemplate = head ++ "__NODES" ++ middle ++ "__EDGES" ++ tail) (d : Diagram) :
    pageText d = head ++
        replaceAll "__EDGES" (scriptJson (pageEdges d.edges)) (scriptJson (pageNodes d.edges)) ++
        middle ++ scriptJson (pageEdges d.edges) ++ tail ∧
      (pageText d = head ++ scriptJson (pageNodes d.edges) ++ middle ++
          scriptJson (pageEdges d.edges) ++ tail ↔
        ∀ name ∈ Containment.endpoints d.edges, ¬ "__EDGES".toList <:+: name.toList) := by
  refine ⟨pageText_eq h d, ?_⟩
  rw [pageText_eq h d, String.append_left_inj, String.append_left_inj, String.append_left_inj,
    String.append_right_inj, replaceAll_edges_eq_self_iff]

/-- A file that is named like the placeholder of the nodes. -/
def nodesFile : Diagram := { (default : Diagram) with edges := [("a.py", "__NODES.py")] }

theorem pageText_eq_nodesFile : ∃ head middle tail : String,
    pageTemplate = head ++ "__NODES" ++ middle ++ "__EDGES" ++ tail ∧
      (∀ name ∈ Containment.endpoints nodesFile.edges, ¬ "__EDGES".toList <:+: name.toList) ∧
      pageText nodesFile = head ++ scriptJson (pageNodes nodesFile.edges) ++ middle ++
        scriptJson (pageEdges nodesFile.edges) ++ tail := by
  obtain ⟨head, middle, tail, h⟩ := exists_pageTemplate_eq
  have hnames : ∀ name ∈ Containment.endpoints nodesFile.edges,
      ¬ "__EDGES".toList <:+: name.toList := by decide
  exact ⟨head, middle, tail, h, hnames, (pageText_eq_iff h nodesFile).2.2 hnames⟩

/-- A file that is named like the placeholder of the edges. -/
def placeholderName : Diagram := { (default : Diagram) with edges := [("__EDGES.py", "b.py")] }

/-- The edges stand within the name, and end the string that holds it. -/
theorem pageText_ne_placeholderName : ∃ head middle tail : String,
    pageTemplate = head ++ "__NODES" ++ middle ++ "__EDGES" ++ tail ∧
      pageText placeholderName ≠ head ++ scriptJson (pageNodes placeholderName.edges) ++
        middle ++ scriptJson (pageEdges placeholderName.edges) ++ tail := by
  obtain ⟨head, middle, tail, h⟩ := exists_pageTemplate_eq
  have hname : "__EDGES.py" ∈ Containment.endpoints placeholderName.edges := by decide
  have hocc : "__EDGES".toList <:+: "__EDGES.py".toList := by decide
  refine ⟨head, middle, tail, h, fun heq => ?_⟩
  rw [pageText_eq h, String.append_left_inj, String.append_left_inj, String.append_left_inj,
    String.append_right_inj, replaceAll_edges_eq_self_iff] at heq
  exact heq _ hname hocc

end DepGraph
