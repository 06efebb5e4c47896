/-
  DepGraph — leaving out what is external.

  What is external is left out in the first stage, before names are filtered and
  before it is asked what can be reached from the roots.  If no entity carries a
  tag, this comes to the same as taking the tagged targets away at the end:
  something external has no targets of its own, so no chain from a root runs
  through it, and an edge to it is a dead end of the search for cycles.

  * `Dependencies.keepTargets`: a map with only the targets that pass a test.
  * `markExternal_true_eq`: what the first stage leaves out are tagged targets.
  * `restrict_keepTargets`, `restrictToRoots_keepTargets`, `edges_keepTargets`: the
    later stages let targets be taken away after them.
  * `exclude_removes_external`: the dependencies, the edges and the cycles of the
    two graphs.
-/
import DepGraph.Proofs.Cycle.Pruning
import DepGraph.Proofs.Diagram.Stages
import DepGraph.Proofs.Graph.Name

namespace DepGraph

open Relation

namespace Dependencies

/-- Keep the targets that pass a test. -/
def keepTargets (p : String → Bool) (deps : Dependencies) : Dependencies :=
  deps.mapValues fun _ targets => targets.filter p

section
variable {p : String → Bool} {deps : Dependencies}

@[simp] theorem keys_keepTargets (p : String → Bool) (deps : Dependencies) :
    (keepTargets p deps).keys = deps.keys := OrderedMap.keys_mapValues ..

theorem leads_keepTargets {name target : String} :
    Leads (keepTargets p deps) name target ↔ Leads deps name target ∧ p target = true := by
  simp only [Leads, mem_targets, keepTargets, OrderedMap.get?_mapValues, Option.map_eq_some_iff]
  constructor
  · rintro ⟨_, ⟨l, hl, rfl⟩, ht⟩
    obtain ⟨htl, hp⟩ := List.mem_filter.1 ht
    exact ⟨⟨l, hl, htl⟩, hp⟩
  · rintro ⟨⟨l, hl, htl⟩, hp⟩
    exact ⟨_, ⟨l, hl, rfl⟩, List.mem_filter.2 ⟨htl, hp⟩⟩

/-! ## The stages -/

/-- A tagged target is one that is no entity, if no entity carries a tag. -/
theorem isExternal_markTarget (hext : ∀ k ∈ deps.keys, isExternal k = false) (target : String) :
    (!isExternal (markTarget deps target)) = deps.contains target := by
  unfold markTarget
  cases hc : deps.contains target with
  | true => simp [hext target (OrderedMap.contains_iff_mem.1 hc)]
  | false => simp [isExternal_markName]

/-- What the first stage leaves out are the targets that it tags otherwise. -/
theorem markExternal_true_eq (hext : ∀ k ∈ deps.keys, isExternal k = false) :
    markExternal true deps = keepTargets (fun t => !isExternal t) (markExternal false deps) := by
  have key : ∀ targets : List String, targets.filter deps.contains =
      (targets.map (markTarget deps)).filter fun t => !isExternal t := by
    intro targets
    calc targets.filter deps.contains
        = (targets.filter deps.contains).map (markTarget deps) := by
          refine ((List.map_congr_left fun t ht => ?_).trans (List.map_id _)).symm
          exact if_pos (List.mem_filter.1 ht).2
      _ = (targets.map (markTarget deps)).filter fun t => !isExternal t := by
          rw [List.filter_map]
          congr 1
          exact List.filter_congr fun t _ => (isExternal_markTarget hext t).symm
  ext1
  simp [markExternal, keepTargets, OrderedMap.mapValues, key]

/-- Filters on names and on targets may be applied in either order. -/
theorem restrict_keepTargets (pass p : String → Bool) (deps : Dependencies) :
    restrict pass (keepTargets p deps) = keepTargets p (restrict pass deps) := by
  rw [restrict, restrict, keepTargets, OrderedMap.filter_mapValues]
  ext1
  simp [keepTargets, OrderedMap.mapValues, Bool.and_comm]

/-- Targets that are no entities lead nowhere, so taking them away takes no chain
  to an entity away. -/
theorem reflTransGen_keepTargets (hkeys : ∀ k ∈ deps.keys, p k = true) {a b : String}
    (hb : b ∈ deps.keys) :
    ReflTransGen (Leads (keepTargets p deps)) a b ↔ ReflTransGen (Leads deps) a b := by
  constructor
  · exact fun h => ReflTransGen.mono (fun _ _ hs => (leads_keepTargets.1 hs).1) _ _ h
  · intro h
    induction h with
    | refl => exact .refl
    | tail _ hstep ih =>
      exact (ih (mem_keys_of_mem_targets hstep)).tail (leads_keepTargets.2 ⟨hstep, hkeys _ hb⟩)

theorem restrictToRoots_keepTargets (pass : String → Bool)
    (hkeys : ∀ k ∈ deps.keys, p k = true) :
    restrictToRoots pass (keepTargets p deps) = keepTargets p (restrictToRoots pass deps) := by
  rw [restrictToRoots, restrictToRoots, keys_keepTargets, keepTargets, OrderedMap.filter_mapValues]
  refine congrArg (keepTargets p) (OrderedMap.filter_congr_keys fun name hname => ?_)
  rw [decide_eq_decide, mem_reachableFrom, mem_reachableFrom]
  exact exists_congr fun r => and_congr_right fun _ => reflTransGen_keepTargets hkeys hname

/-! ## The edges -/

/-- Edges may be taken away before an edge list is cleaned; of the edges met
  before, only those that are not taken away count. -/
theorem cleanFrom_filter {q : Edge → Bool} {edges seen seen' : List Edge}
    (h : ∀ e, q e = true → (e ∈ seen' ↔ e ∈ seen)) :
    cleanFrom seen' (edges.filter q) = (cleanFrom seen edges).filter q := by
  induction edges generalizing seen seen' with
  | nil => rfl
  | cons head rest ih =>
    by_cases hq : q head = true
    · have hskip : (head.1 = head.2 ∨ head ∈ seen') ↔ (head.1 = head.2 ∨ head ∈ seen) :=
        or_congr_right (h head hq)
      rw [List.filter_cons, if_pos hq, cleanFrom, cleanFrom]
      by_cases hs : head.1 = head.2 ∨ head ∈ seen
      · rw [if_pos (hskip.2 hs), if_pos hs, ih h]
      · rw [if_neg fun hs' => hs (hskip.1 hs'), if_neg hs, List.filter_cons, if_pos hq]
        congr 1
        refine ih fun e he => ?_
        rw [List.mem_cons, List.mem_cons, h e he]
    · -- an edge that is taken away is none that is met again
      rw [List.filter_cons, if_neg hq, cleanFrom]
      split
      · exact ih h
      · rw [List.filter_cons, if_neg hq]
        refine ih fun e he => ?_
        have hne : e ≠ head := fun heq => hq (heq ▸ he)
        rw [List.mem_cons, or_iff_right hne, h e he]

theorem edges_keepTargets (p : String → Bool) (deps : Dependencies) :
    edges (keepTargets p deps) = (edges deps).filter fun e => p e.2 := by
  rw [edges, edges, ← cleanFrom_filter fun e _ => Iff.rfl]
  congr 1
  simp [keepTargets, OrderedMap.mapValues, List.flatMap_map, List.filter_flatMap, List.filter_map,
    Function.comp_def]

end

end Dependencies

/-- The same options, but external targets are left out, or they are not. -/
def DiagramOptions.excluding (o : DiagramOptions) (exclude : Bool) : DiagramOptions :=
  { o with excludeExternal := exclude }

namespace Diagram

section
variable {s : Survey} {o : DiagramOptions}
  (hext : ∀ k ∈ (select s o.byPaths).1.keys, isExternal k = false)
include hext

/-- The dependencies without what is external are the others without their tagged
  targets. -/
theorem dependenciesOf_excluding :
    dependenciesOf s (o.excluding true) =
      (dependenciesOf s (o.excluding false)).keepTargets fun t => !isExternal t := by
  have haccepted : accepted s (o.excluding true) =
      (accepted s (o.excluding false)).keepTargets fun t => !isExternal t := by
    change ((select s o.byPaths).1.markExternal true).restrict o.results.passes = _
    rw [Dependencies.markExternal_true_eq hext, Dependencies.restrict_keepTargets]
    rfl
  change (accepted s (o.excluding true)).restrictToRoots o.roots.passes = _
  rw [haccepted, Dependencies.restrictToRoots_keepTargets]
  · rfl
  · intro k hk
    rw [hext k (mem_keys_accepted.1 hk).1, Bool.not_false]

/-- An edge to something external is a dead end. -/
theorem not_isExternal_of_hasSource {e : Edge}
    (h : Cycle.hasSource (dependenciesOf s (o.excluding false)).edges e.2 = true) :
    (!isExternal e.2) = true := by
  obtain ⟨target, hstep⟩ := Cycle.hasSource_iff.1 h
  have hlead := (Dependencies.mem_edges.1 hstep).2
  obtain ⟨-, haccepted⟩ := leads_dependenciesOf.1 hlead
  have hkey := (mem_keys_accepted.1 (Dependencies.mem_keys_of_mem_targets haccepted)).1
  rw [hext e.2 hkey, Bool.not_false]

end

/-- **Leaving out what is external takes the external targets away, and nothing
  else**: from the list of every entity, and from the edges; and the cycles that
  are found are the same. -/
theorem exclude_removes_external (s : Survey) (o : DiagramOptions)
    (hext : ∀ k ∈ (select s o.byPaths).1.keys, isExternal k = false) :
    ∃ d shown, build? s (o.excluding true).whole = some d ∧
      build? s (o.excluding false).whole = some shown ∧
      d.dependencies = shown.dependencies.mapValues
        (fun _ targets => targets.filter fun t => !isExternal t) ∧
      d.edges = shown.edges.filter (fun e => !isExternal e.2) ∧
      Cycle.findCycles d.edges = Cycle.findCycles shown.edges := by
  obtain ⟨d, hd, hdeps, hedges⟩ := exists_build?_whole s (o.excluding true)
  obtain ⟨shown, hshown, hshownDeps, hshownEdges⟩ := exists_build?_whole s (o.excluding false)
  have hfiltered : d.edges = shown.edges.filter fun e => !isExternal e.2 := by
    rw [hedges, hshownEdges, dependenciesOf_excluding hext, Dependencies.edges_keepTargets]
  refine ⟨d, shown, hd, hshown, ?_, hfiltered, ?_⟩
  · rw [hdeps, hshownDeps, dependenciesOf_excluding hext]
    rfl
  · rw [hfiltered]
    refine Cycle.findCycles_filter fun e _ hs => not_isExternal_of_hasSource hext ?_
    rwa [← hshownEdges]

/-- Two files that refer to each other and to a library, and a file that refers to
  the library alone. -/
def withLibrary : Survey :=
  { Survey.empty "/" with
    paths := OrderedMap.ofList
      [("a", ["lib", "b", "lib"]), ("b", ["*external-module*/x", "a"]), ("c", ["lib"])] }

theorem exclude_removes_external_withLibrary :
    (∀ k ∈ (select withLibrary false).1.keys, isExternal k = false) ∧
      ∃ d shown, build? withLibrary (DiagramOptions.excluding {} true).whole = some d ∧
        build? withLibrary (DiagramOptions.excluding {} false).whole = some shown ∧
        shown.edges = [("a", "*external*/lib"), ("a", "b"), ("b", "*external-module*/x"),
          ("b", "a"), ("c", "*external*/lib")] ∧
        d.edges = [("a", "b"), ("b", "a")] ∧
        Cycle.findCycles d.edges = [["a", "b", "a"]] ∧
        Cycle.findCycles shown.edges = [["a", "b", "a"]] := by
  have hext : ∀ k ∈ (select withLibrary false).1.keys, isExternal k = false := by decide +kernel
  obtain ⟨d, shown, hd, hshown, -, hedges, hcycles⟩ := exclude_removes_external withLibrary {} hext
  have hshownEdges : (build? withLibrary (DiagramOptions.excluding {} false).whole).map (·.edges) =
      some [("a", "*external*/lib"), ("a", "b"), ("b", "*external-module*/x"), ("b", "a"),
        ("c", "*external*/lib")] := by decide +kernel
  rw [hshown, Option.map_some, Option.some.injEq] at hshownEdges
  have hkept : d.edges = [("a", "b"), ("b", "a")] := by
    rw [hedges, hshownEdges]
    decide +kernel
  have hfound : Cycle.findCycles d.edges = [["a", "b", "a"]] := by
    rw [hkept]
    decide +kernel
  exact ⟨hext, d, shown, hd, hshown, hshownEdges, hkept, hfound, hcycles ▸ hfound⟩

end Diagram

end DepGraph
