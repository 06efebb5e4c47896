/-
  DepGraph — graphs drawn again.

  The dependencies of a graph can be drawn in turn, by the same options.  No stage
  finds anything to do then: targets are entities or tagged, all names pass the
  filter, and every entity is still reached from a root, since all entities on the
  way to it are drawn as well.

  * `markExternal_eq_self`, `restrict_eq_self`, `restrictToRoots_eq_self`: when a
    stage changes nothing.
  * `reflTransGen_dependenciesOf`: chains from a root are drawn.
  * `dependenciesOf_redrawn`: the dependencies that are drawn stay as they are.
  * `redrawn_eq`: so does the whole graph.
-/
import DepGraph.Proofs.Diagram.Closed

namespace DepGraph

open Relation

namespace Dependencies

section
variable {deps : Dependencies} {pass : String → Bool}

/-! ## Stages that change nothing -/

theorem markExternal_eq_self {exclude : Bool} (h : Closed exclude deps) :
    markExternal exclude deps = deps := by
  refine OrderedMap.mapValues_eq_self fun name l hl => ?_
  have hclosed : ∀ t ∈ l, deps.contains t = true ∨ exclude = false ∧ isExternal t = true :=
    fun t ht => (h name t (mem_targets.2 ⟨l, hl, ht⟩)).imp_left OrderedMap.contains_iff_mem.2
  cases exclude with
  | true =>
    refine List.filter_eq_self.2 fun t ht => ?_
    exact (hclosed t ht).resolve_right fun hext => Bool.noConfusion hext.1
  | false =>
    refine (List.map_congr_left fun t ht => ?_).trans (List.map_id l)
    unfold markTarget markName
    rcases hclosed t ht with hkey | ⟨-, hext⟩
    · simp [hkey]
    · simp [hext]

theorem restrict_eq_self (hkeys : ∀ k ∈ deps.keys, pass k = true)
    (htargets : ∀ name target, Leads deps name target → pass target = true) :
    restrict pass deps = deps := by
  rw [restrict, OrderedMap.filter_eq_self hkeys]
  refine OrderedMap.mapValues_eq_self fun name l hl => ?_
  exact List.filter_eq_self.2 fun t ht => htargets name t (mem_targets.2 ⟨l, hl, ht⟩)

theorem restrictToRoots_eq_self
    (h : ∀ k ∈ deps.keys, ∃ r ∈ deps.keys, pass r = true ∧ ReflTransGen (Leads deps) r k) :
    restrictToRoots pass deps = deps := by
  refine OrderedMap.filter_eq_self
    (p := fun name => name ∈ reachableFrom deps (deps.keys.filter pass)) fun k hk => ?_
  obtain ⟨r, hr, hpass, hchain⟩ := h k hk
  exact decide_eq_true (mem_reachableFrom.2 ⟨r, List.mem_filter.2 ⟨hr, hpass⟩, hchain⟩)

end

end Dependencies

namespace Diagram

section
variable {s again : Survey} {o : DiagramOptions}

/-! ## The dependencies -/

/-- All steps of a chain from a root are drawn. -/
theorem reflTransGen_dependenciesOf {r name : String} (hr : r ∈ (accepted s o).keys)
    (hroot : o.roots.passes r = true)
    (h : ReflTransGen (Dependencies.Leads (accepted s o)) r name) :
    ReflTransGen (Dependencies.Leads (dependenciesOf s o)) r name := by
  induction h with
  | refl => exact .refl
  | tail hchain hstep ih => exact ih.tail (leads_dependenciesOf.2 ⟨⟨r, hr, hroot, hchain⟩, hstep⟩)

/-- Every entity that is drawn is reached from a root that is drawn. -/
theorem exists_root_dependenciesOf {name : String} (h : name ∈ (dependenciesOf s o).keys) :
    ∃ r ∈ (dependenciesOf s o).keys, o.roots.passes r = true ∧
      ReflTransGen (Dependencies.Leads (dependenciesOf s o)) r name := by
  obtain ⟨-, r, hr, hroot, hchain⟩ := mem_keys_dependenciesOf.1 h
  exact ⟨r, mem_keys_dependenciesOf.2 ⟨hr, r, hr, hroot, .refl⟩, hroot,
    reflTransGen_dependenciesOf hr hroot hchain⟩

/-- Drawing the dependencies of a graph gives them again. -/
theorem dependenciesOf_redrawn (h : (select again o.byPaths).1 = dependenciesOf s o) :
    dependenciesOf again o = dependenciesOf s o := by
  have hkeys : ∀ k ∈ (dependenciesOf s o).keys, o.results.passes k = true :=
    fun k hk => (mem_keys_accepted.1 (mem_keys_dependenciesOf.1 hk).1).2
  have htargets : ∀ name target, Dependencies.Leads (dependenciesOf s o) name target →
      o.results.passes target = true :=
    fun name target hstep => (leads_accepted.1 (leads_dependenciesOf.1 hstep).2).2.1
  rw [dependenciesOf, h, Dependencies.markExternal_eq_self (closed_dependenciesOf s o),
    Dependencies.restrict_eq_self hkeys htargets,
    Dependencies.restrictToRoots_eq_self fun k hk => exists_root_dependenciesOf hk]

/-! ## The graph -/

/-- Graphs of the same dependencies, with names separated alike, are the same. -/
theorem MadeFrom.congr {d d' : Diagram} (h : MadeFrom s o d) (h' : MadeFrom again o d')
    (hsep : (select again o.byPaths).2 = (select s o.byPaths).2)
    (hdeps : dependenciesOf again o = dependenciesOf s o) :
    d'.dependencies = d.dependencies ∧ d'.edges = d.edges ∧ d'.contains = d.contains ∧
      d'.containsEdges = d.containsEdges := by
  have hseparator : d'.separator = d.separator := by rw [h'.separator, hsep, h.separator]
  have hdependencies : d'.dependencies = d.dependencies := by
    rw [h'.dependencies, hdeps, h.dependencies]
  have hedges : d'.edges = d.edges := by rw [h'.edges, hseparator, hdependencies, ← h.edges]
  have hcontains : d'.contains = d.contains := by
    rw [h'.contains, hseparator, hedges, ← h.contains]
  refine ⟨hdependencies, hedges, hcontains, ?_⟩
  rw [h'.containsEdges, hcontains, hedges, ← h.containsEdges]

theorem select_eq_paths {byPaths : Bool} (h : s.modules.isEmpty = true ∨ byPaths = true) :
    select s byPaths = (s.paths, "/") := by
  refine if_neg ?_
  rcases h with h | h <;> simp [h]

end

/-- **A graph that is drawn again is the same**: if the dependencies of files are
  drawn, a survey whose files have the dependencies of the graph, and which knows no
  modules, gives the same dependencies, edges and containment, in the same order. -/
theorem redrawn_eq (s : Survey) (o : DiagramOptions)
    (hpaths : s.modules.isEmpty = true ∨ o.byPaths = true) :
    ∃ d, build? s o = some d ∧
      ∀ again : Survey, again.paths = d.dependencies → again.modules = ∅ →
        ∃ d', build? again o = some d' ∧ d'.dependencies = d.dependencies ∧
          d'.edges = d.edges ∧ d'.contains = d.contains ∧
          d'.containsEdges = d.containsEdges := by
  have hselect := select_eq_paths hpaths
  obtain ⟨d, hd, hdeps, -⟩ := exists_build? (s := s) (o := o) (by simp [hselect])
  refine ⟨d, hd, fun again hagain hmodules => ?_⟩
  have hselect' : select again o.byPaths = (again.paths, "/") :=
    select_eq_paths (.inl (by rw [hmodules]; rfl))
  obtain ⟨d', hd', -⟩ := exists_build? (s := again) (o := o) (by simp [hselect'])
  have hsame : dependenciesOf again o = dependenciesOf s o :=
    dependenciesOf_redrawn (by rw [hselect', hagain, hdeps])
  exact ⟨d', hd', (madeFrom_of_build? hd).congr (madeFrom_of_build? hd')
    (by rw [hselect', hselect]) hsame⟩

/-- Files of two folders that refer to each other, to a file that leads back over
  another one, and to a library. -/
def folders : Survey :=
  { Survey.empty "/" with
    paths := OrderedMap.ofList
      [("a/x", ["b/y", "c", "lib"]), ("b/y", ["a/x", "c"]), ("c", ["d"]), ("d", ["a/x"])] }

/-- The folders that are reached from names that start with `a`, without names in
  which `c` occurs. -/
def fromFolderA : DiagramOptions :=
  { results := ⟨[], [.char (.literal .exact 99)]⟩,
    roots := ⟨[.seq (.place .textStart) (.char (.literal .exact 97))], []⟩, depths := ⟨1, 1⟩ }

theorem redrawn_eq_folders :
    (folders.modules.isEmpty = true ∨ fromFolderA.byPaths = true) ∧
      ∃ d, build? folders fromFolderA = some d ∧
        d.dependencies.entries = [("a/x", ["b/y", "*external*/lib"]), ("b/y", ["a/x"])] ∧
        ∃ d', build? { Survey.empty "." with paths := d.dependencies } fromFolderA = some d' ∧
          d'.dependencies = d.dependencies ∧ d'.edges = d.edges ∧ d'.contains = d.contains ∧
          d'.containsEdges = d.containsEdges := by
  have hpaths : folders.modules.isEmpty = true ∨ fromFolderA.byPaths = true := by decide
  obtain ⟨d, hd, hagain⟩ := redrawn_eq folders fromFolderA hpaths
  have hdeps : (build? folders fromFolderA).map (·.dependencies.entries) =
      some [("a/x", ["b/y", "*external*/lib"]), ("b/y", ["a/x"])] := by decide +kernel
  rw [hd, Option.map_some, Option.some.injEq] at hdeps
  exact ⟨hpaths, d, hd, hdeps, hagain _ rfl rfl⟩

end Diagram

end DepGraph
