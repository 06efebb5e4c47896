/-
  DepGraph — a graph with truncated names is a quotient.

  Names are truncated by whether they lie within the tree.  What lies within it
  is read off the entities that are drawn and their leading parts; this comes to
  the same as being an entity of the chosen view: a target that is drawn is drawn
  as an entity as well, or is tagged, and what starts with a tag is no leading
  part of an entity without one.

  * `mem_keys_or_isExternal`: a target that is drawn is an entity that is drawn,
    or external.
  * `mem_withLeadingParts_iff`: the ends of edges that count as within the tree.
  * `firstSegments`, `cutName`: the first segments of a name, as many as its kind
    keeps.
  * `edges_truncated_eq`: the edges are those between the names that are cut.
-/
import DepGraph.Proofs.Diagram.Closed
import DepGraph.Proofs.Graph.Collapse

namespace DepGraph

open DepGraph.Text Relation

/-- The first segments of a name; none asked for leaves the name whole. -/
def firstSegments (separator : String) (count : Nat) (name : String) : String :=
  if count = 0 then name else join separator ((split separator name).take count)

/-- A name cut after its first segments: after `inside` many if it is an entity of
  a map, else after `outside` many. -/
def cutName (raw : Dependencies) (separator : String) (inside outside : Nat) (name : String) :
    String :=
  firstSegments separator (if name ∈ raw.keys then inside else outside) name

theorem truncate_natCast (separator : String) (count : Nat) (name : String) :
    truncate separator count name = firstSegments separator count name := by
  unfold truncate firstSegments takeSegments
  by_cases h : count = 0 <;> simp [h]

/-- The same options, but no beginning is cut from names, and they are truncated. -/
def DiagramOptions.truncated (o : DiagramOptions) (inside outside : Nat) : DiagramOptions :=
  { o.whole with depths := ⟨inside, outside⟩ }

namespace Diagram

section
variable {s : Survey} {o : DiagramOptions}

/-! ## Entities and targets that are drawn -/

theorem mem_keys_select {name : String} (h : name ∈ (dependenciesOf s o).keys) :
    name ∈ (select s o.byPaths).1.keys :=
  (mem_keys_accepted.1 (mem_keys_dependenciesOf.1 h).1).1

/-- A target that is drawn is an entity that is drawn, or carries a tag. -/
theorem mem_keys_or_isExternal {name target : String}
    (h : Dependencies.Leads (dependenciesOf s o) name target) :
    target ∈ (dependenciesOf s o).keys ∨ isExternal target = true :=
  (closed_dependenciesOf s o name target h).imp_right And.right

theorem end_mem_keys_or_isExternal {e : Edge} (he : e ∈ (dependenciesOf s o).edges) {name : String}
    (hname : name = e.1 ∨ name = e.2) :
    name ∈ (dependenciesOf s o).keys ∨ isExternal name = true := by
  obtain ⟨-, htarget⟩ := Dependencies.mem_edges.1 he
  rcases hname with rfl | rfl
  · exact .inl (Dependencies.mem_keys_of_mem_targets htarget)
  · exact mem_keys_or_isExternal htarget

/-! ## What lies within the tree -/

/-- An end of an edge is an entity that is drawn, or a leading part of one, iff it
  is an entity of the chosen view. -/
theorem mem_withLeadingParts_iff
    (hext : ∀ k ∈ (select s o.byPaths).1.keys, isExternal k = false) (separator : String)
    {name : String} (hname : name ∈ (dependenciesOf s o).keys ∨ isExternal name = true) :
    name ∈ withLeadingParts separator (dependenciesOf s o).keys ↔
      name ∈ (select s o.byPaths).1.keys := by
  constructor
  · intro h
    obtain ⟨k, hk, hpart⟩ := mem_withLeadingParts.1 h
    obtain ⟨rest, rfl⟩ := exists_append_of_mem_leadingParts hpart
    rcases hname with hname | hname
    · exact mem_keys_select hname
    · -- an entity without a tag does not start with a tagged name
      have htag := hext _ (mem_keys_select hk)
      rw [isExternal_append hname] at htag
      cases htag
  · intro h
    rcases hname with hname | hname
    · exact subset_withLeadingParts separator _ hname
    · rw [hext name h] at hname
      cases hname

theorem truncatedName_eq (hext : ∀ k ∈ (select s o.byPaths).1.keys, isExternal k = false)
    (separator : String) (inside outside : Nat) {name : String}
    (hname : name ∈ (dependenciesOf s o).keys ∨ isExternal name = true) :
    truncatedName separator ⟨inside, outside⟩ (dependenciesOf s o).keys name =
      cutName (select s o.byPaths).1 separator inside outside name := by
  unfold truncatedName shorten cutName
  by_cases h : name ∈ (select s o.byPaths).1.keys
  · rw [if_pos ((mem_withLeadingParts_iff hext separator hname).2 h), if_pos h, truncate_natCast]
  · rw [if_neg fun hin => h ((mem_withLeadingParts_iff hext separator hname).1 hin), if_neg h,
      truncate_natCast]

/-! ## The edges -/

theorem edgesOf_truncated {separator : String} {inside outside : Nat}
    (hdepth : inside ≠ 0 ∨ outside ≠ 0) :
    edgesOf separator (o.truncated inside outside) (dependenciesOf s o) =
      collapse separator ⟨inside, outside⟩ (dependenciesOf s o).keys (dependenciesOf s o).edges := by
  have hactive : (o.truncated inside outside).depths.isActive = true := by
    simpa [DiagramOptions.truncated, Depths.isActive] using hdepth
  have hnames : insideNames (o.truncated inside outside) (dependenciesOf s o) =
      (dependenciesOf s o).keys :=
    (List.map_congr_left fun k _ => cutStart_empty k).trans (List.map_id' _)
  have hedges : wholeEdges (o.truncated inside outside) (dependenciesOf s o) =
      (dependenciesOf s o).edges := cutStarts_empty _
  rw [edgesOf, if_pos hactive, hnames, hedges]
  rfl

end

/-- **A graph with truncated names is the quotient of the one with whole names**:
  each edge leads between the names that are cut, in order; edges with an empty
  end or two equal ends are left out, and of equal edges the first is kept. -/
theorem edges_truncated_eq (s : Survey) (o : DiagramOptions) (inside outside : Nat)
    (hdepth : inside ≠ 0 ∨ outside ≠ 0) (hsep : (select s o.byPaths).2 ≠ "")
    (hext : ∀ k ∈ (select s o.byPaths).1.keys, isExternal k = false) :
    ∃ d whole, build? s (o.truncated inside outside) = some d ∧ build? s o.whole = some whole ∧
      let cut := cutName (select s o.byPaths).1 (select s o.byPaths).2 inside outside
      d.edges = ((whole.edges.map fun e => (cut e.1, cut e.2)).filter
        fun e => e.1 != "" && e.2 != "" && e.1 != e.2).eraseDups := by
  obtain ⟨d, hd, -, hedges⟩ := exists_build? (o := o.truncated inside outside) hsep
  obtain ⟨whole, hwhole, -, hwholeEdges⟩ := exists_build?_whole s o
  refine ⟨d, whole, hd, hwhole, ?_⟩
  have hcollapse : d.edges = collapse (select s o.byPaths).2 ⟨inside, outside⟩
      (dependenciesOf s o).keys (dependenciesOf s o).edges := hedges.trans (edgesOf_truncated hdepth)
  rw [hcollapse, hwholeEdges, collapse_eq]
  congr 2
  refine List.map_congr_left fun e he => ?_
  rw [truncatedName_eq hext _ _ _ (end_mem_keys_or_isExternal he (.inl rfl)),
    truncatedName_eq hext _ _ _ (end_mem_keys_or_isExternal he (.inr rfl))]

/-- Files of two folders, one of which refers to something outside the tree. -/
def twoFolders : Survey :=
  { Survey.empty "/" with
    paths := OrderedMap.ofList
      [("a/x", ["b/y", "a/z", "os/path"]), ("b/y", ["a/x", "a/z"]), ("a/z", [])] }

theorem edges_truncated_twoFolders :
    (1 ≠ 0 ∨ 2 ≠ 0) ∧ (select twoFolders false).2 ≠ "" ∧
      (∀ k ∈ (select twoFolders false).1.keys, isExternal k = false) ∧
      ∃ d, build? twoFolders (DiagramOptions.truncated {} 1 2) = some d ∧
        d.edges = [("a", "b"), ("a", "*external*/os"), ("b", "a")] := by
  have hdepth : 1 ≠ 0 ∨ 2 ≠ 0 := by decide
  have hsep : (select twoFolders false).2 ≠ "" := by decide
  have hext : ∀ k ∈ (select twoFolders false).1.keys, isExternal k = false := by decide +kernel
  obtain ⟨d, whole, hd, hwhole, hedges⟩ := edges_truncated_eq twoFolders {} 1 2 hdepth hsep hext
  have hwholeEdges : (build? twoFolders (DiagramOptions.whole {})).map (·.edges) =
      some [("a/x", "b/y"), ("a/x", "a/z"), ("a/x", "*external*/os/path"), ("b/y", "a/x"),
        ("b/y", "a/z")] := by decide +kernel
  rw [hwhole, Option.map_some, Option.some.injEq] at hwholeEdges
  refine ⟨hdepth, hsep, hext, d, hd, ?_⟩
  rw [hedges, hwholeEdges]
  decide +kernel

end Diagram

end DepGraph
