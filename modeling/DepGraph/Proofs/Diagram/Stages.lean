/-
  DepGraph — the stages of a graph, one by one.

  Every graph is made of the dependencies that are drawn (`dependenciesOf`) and
  of their edges under shorter names (`edgesOf`).

  * `DiagramOptions.whole`: the same options, but names are kept whole.
  * `exists_build?`: a graph is made whenever something separates segments.
  * `MadeFrom`: how the parts of a graph that is made depend on one another.
  * `exists_build?_whole`: with whole names one is always made, and its edges
    are those of the dependencies.
  * `leads_dependenciesOf`: one step in the dependencies that are drawn.
-/
import DepGraph.Diagram
import DepGraph.Proofs.Graph.Reachability

namespace DepGraph

open DepGraph.Text Relation

/-- The same options, but no beginning is cut from names and none is truncated. -/
def DiagramOptions.whole (o : DiagramOptions) : DiagramOptions :=
  { o with start := "", depths := ⟨0, 0⟩ }

@[simp] theorem cutStart_empty (name : String) : cutStart "" name = name := by
  simp [cutStart, dropPrefix?, List.isPrefixOf?]

@[simp] theorem cutStarts_empty (edges : List Edge) : cutStarts "" edges = edges := by
  simp [cutStarts]

namespace Diagram

/-! ## A graph is made -/

/-- A graph is made of the dependencies that are drawn, if something separates
  segments or there are none to count. -/
theorem exists_build?_of_separates {s : Survey} {o : DiagramOptions}
    (h : (select s o.byPaths).2 ≠ "" ∨ o.depths.isActive = false) :
    ∃ d, build? s o = some d ∧ d.dependencies = dependenciesOf s o ∧
      d.edges = edgesOf (select s o.byPaths).2 o (dependenciesOf s o) := by
  have hmade : (o.depths.isActive && lacksSeparator (select s o.byPaths).2 o.depths
      (insideNames o (dependenciesOf s o)) (wholeEdges o (dependenciesOf s o))) = false := by
    rcases h with hsep | hinactive
    · simp [lacksSeparator, hsep]
    · simp [hinactive]
  exact ⟨_, if_neg (by simp [hmade]), rfl, rfl⟩

/-- A graph is made whenever something separates segments. -/
theorem exists_build? {s : Survey} {o : DiagramOptions} (h : (select s o.byPaths).2 ≠ "") :
    ∃ d, build? s o = some d ∧ d.dependencies = dependenciesOf s o ∧
      d.edges = edgesOf (select s o.byPaths).2 o (dependenciesOf s o) :=
  exists_build?_of_separates (.inl h)

/-- How the parts of a graph are made from one another. -/
structure MadeFrom (s : Survey) (o : DiagramOptions) (d : Diagram) : Prop where
  survey : d.survey = s
  separator : d.separator = (select s o.byPaths).2
  dependencies : d.dependencies = dependenciesOf s o
  edges : d.edges = edgesOf d.separator o d.dependencies
  contains : d.contains = .ofNames d.separator (Containment.endpoints d.edges)
  containsEdges : d.containsEdges = Containment.collapse d.contains.edges d.edges ""

theorem madeFrom_of_build? {s : Survey} {o : DiagramOptions} {d : Diagram}
    (h : build? s o = some d) : MadeFrom s o d := by
  simp only [build?] at h
  split at h
  · cases h
  · obtain rfl := Option.some.inj h
    exact ⟨rfl, rfl, rfl, rfl, rfl, rfl⟩

@[simp] theorem dependenciesOf_whole (s : Survey) (o : DiagramOptions) :
    dependenciesOf s o.whole = dependenciesOf s o := rfl

@[simp] theorem edgesOf_whole (separator : String) (o : DiagramOptions) (deps : Dependencies) :
    edgesOf separator o.whole deps = deps.edges := by
  simp [edgesOf, DiagramOptions.whole, Depths.isActive, wholeEdges]

/-- With whole names a graph is always made. -/
theorem exists_build?_whole (s : Survey) (o : DiagramOptions) :
    ∃ d, build? s o.whole = some d ∧ d.dependencies = dependenciesOf s o ∧
      d.edges = (dependenciesOf s o).edges := by
  obtain ⟨d, hd, hdeps, hedges⟩ :=
    exists_build?_of_separates (s := s) (o := o.whole) (.inr rfl)
  exact ⟨d, hd, hdeps, by rw [hedges, edgesOf_whole, dependenciesOf_whole]⟩

/-! ## The dependencies that are drawn -/

/-- The dependencies before the restriction to what is reached from the roots. -/
def accepted (s : Survey) (o : DiagramOptions) : Dependencies :=
  ((select s o.byPaths).1.markExternal o.excludeExternal).restrict o.results.passes

theorem leads_accepted {s : Survey} {o : DiagramOptions} {name target : String} :
    Dependencies.Leads (accepted s o) name target ↔
      o.results.passes name = true ∧ o.results.passes target = true ∧
        target ∈ ((select s o.byPaths).1.markExternal o.excludeExternal).targets name :=
  Dependencies.mem_targets_restrict

theorem mem_keys_accepted {s : Survey} {o : DiagramOptions} {name : String} :
    name ∈ (accepted s o).keys ↔
      name ∈ (select s o.byPaths).1.keys ∧ o.results.passes name = true := by
  rw [accepted, Dependencies.mem_keys_restrict, Dependencies.keys_markExternal]

/-- One step in the dependencies that are drawn: a step in those accepted, from
  what accepted steps reach from a root. -/
theorem leads_dependenciesOf {s : Survey} {o : DiagramOptions} {name target : String} :
    Dependencies.Leads (dependenciesOf s o) name target ↔
      (∃ r ∈ (accepted s o).keys, o.roots.passes r = true ∧
        ReflTransGen (Dependencies.Leads (accepted s o)) r name) ∧
      Dependencies.Leads (accepted s o) name target := by
  change target ∈ ((accepted s o).restrictToRoots o.roots.passes).targets name ↔ _
  rw [Dependencies.mem_targets_restrictToRoots, Dependencies.mem_reachableFrom]
  simp only [List.mem_filter, and_assoc]
  rfl

theorem passes_of_not_isActive {f : NameFilter} (h : f.isActive = false) (name : String) :
    f.passes name = true := by
  obtain ⟨asked, leftOut⟩ := f
  simp only [NameFilter.isActive, Bool.or_eq_false_iff, Bool.not_eq_false',
    List.isEmpty_iff] at h
  obtain ⟨rfl, rfl⟩ := h
  rfl

end Diagram

end DepGraph
