/-
  DepGraph — graphs that lead nowhere but to themselves and outside.

  A target that is no entity is tagged or left out.  The filter on names takes
  entities and targets away by one test, and what is reached from the roots is
  closed under targets.  So an entity is never taken away from a map that still
  has it as a target.

  * `Dependencies.Closed`: targets are entities, or tagged if such are kept.
  * `mem_keys_dependenciesOf`: the entities that are drawn.
  * `closed_dependenciesOf`: the dependencies that are drawn are closed.
  * `dependencies_closed`: so are those of every graph that is made.
-/
import DepGraph.Proofs.Diagram.Stages
import DepGraph.Proofs.Graph.Name

namespace DepGraph

open Relation

/-- Targets are entities of the map; if external ones are kept, they may be tagged
  names instead. -/
def Dependencies.Closed (exclude : Bool) (deps : Dependencies) : Prop :=
  ∀ name target, Leads deps name target →
    target ∈ deps.keys ∨ exclude = false ∧ isExternal target = true

/-- Without external targets there are no others than entities. -/
theorem Dependencies.Closed.mem_keys {deps : Dependencies} (h : Closed true deps)
    {name target : String} (hstep : Leads deps name target) : target ∈ deps.keys :=
  (h name target hstep).resolve_right fun hext => Bool.noConfusion hext.1

namespace Diagram

section
variable {s : Survey} {o : DiagramOptions}

theorem mem_keys_dependenciesOf {name : String} :
    name ∈ (dependenciesOf s o).keys ↔ name ∈ (accepted s o).keys ∧
      ∃ r ∈ (accepted s o).keys, o.roots.passes r = true ∧
        ReflTransGen (Dependencies.Leads (accepted s o)) r name := by
  change name ∈ ((accepted s o).filter fun name _ =>
    name ∈ (accepted s o).reachableFrom ((accepted s o).keys.filter o.roots.passes)).keys ↔ _
  rw [OrderedMap.mem_keys_filter, decide_eq_true_eq, Dependencies.mem_reachableFrom]
  simp only [List.mem_filter, and_assoc]

end

/-- What is drawn as a target is drawn as an entity, or is tagged. -/
theorem closed_dependenciesOf (s : Survey) (o : DiagramOptions) :
    (dependenciesOf s o).Closed o.excludeExternal := by
  intro name target h
  obtain ⟨⟨r, hr, hroot, hchain⟩, hstep⟩ := leads_dependenciesOf.1 h
  obtain ⟨-, hpass, hmarked⟩ := leads_accepted.1 hstep
  obtain ⟨t, -, ht, hkept⟩ := Dependencies.mem_targets_markExternal.1 hmarked
  unfold Dependencies.markTarget at ht
  split at ht
  · next hkey =>
    -- an accepted entity, reached over the entity that has it as a target
    subst ht
    have hacc := mem_keys_accepted.2 ⟨OrderedMap.contains_iff_mem.1 hkey, hpass⟩
    exact .inl (mem_keys_dependenciesOf.2 ⟨hacc, r, hr, hroot, hchain.tail hstep⟩)
  · next hkey =>
    refine .inr ⟨Bool.eq_false_iff.2 fun hexclude => ?_, ht ▸ isExternal_markName t⟩
    exact hkey (OrderedMap.contains_iff_mem.2 (hkept hexclude))

/-- **Graphs are closed**: a graph is made if something separates segments or no
  name is truncated, and in every graph a listed target is an entity or external,
  and an entity if external targets are left out. -/
theorem dependencies_closed (s : Survey) (o : DiagramOptions) :
    ((select s o.byPaths).2 ≠ "" ∨ o.depths.isActive = false → ∃ d, build? s o = some d) ∧
      ∀ d, build? s o = some d →
        ∀ name targets, (name, targets) ∈ d.dependencies.entries → ∀ target ∈ targets,
          (target ∈ d.dependencies.keys ∨ isExternal target = true) ∧
            (o.excludeExternal = true → target ∈ d.dependencies.keys) := by
  constructor
  · intro hmade
    obtain ⟨d, hd, -⟩ := exists_build?_of_separates hmade
    exact ⟨d, hd⟩
  · intro d hd name targets hmem target ht
    rw [(madeFrom_of_build? hd).dependencies] at hmem ⊢
    have hstep : Dependencies.Leads (dependenciesOf s o) name target :=
      Dependencies.mem_targets.2 ⟨targets, OrderedMap.get?_eq_some_iff.2 hmem, ht⟩
    have hclosed := closed_dependenciesOf s o
    exact ⟨(hclosed name target hstep).imp_right And.right,
      fun hexclude => (hexclude ▸ hclosed).mem_keys hstep⟩

/-- A file that is reached from another one only over a file that is left out. -/
def detour : Survey :=
  { Survey.empty "/" with
    paths := OrderedMap.ofList
      [("a", ["b", "c", "lib"]), ("b", ["a", "c"]), ("c", ["d"]), ("d", ["a"])] }

/-- What is reached from `a`, without names in which `c` occurs. -/
def fromA : DiagramOptions :=
  { results := ⟨[], [.char (.literal .exact 99)]⟩,
    roots := ⟨[.seq (.place .textStart) (.char (.literal .exact 97))], []⟩, depths := ⟨1, 1⟩ }

theorem dependencies_closed_detour :
    ∃ d, build? detour fromA = some d ∧
      d.dependencies.entries = [("a", ["b", "*external*/lib"]), ("b", ["a"])] ∧
      ∀ name targets, (name, targets) ∈ d.dependencies.entries → ∀ target ∈ targets,
        target ∈ d.dependencies.keys ∨ isExternal target = true := by
  have hsep : (select detour fromA.byPaths).2 ≠ "" := by decide
  obtain ⟨hmade, hclosed⟩ := dependencies_closed detour fromA
  obtain ⟨d, hd⟩ := hmade (.inl hsep)
  have hdeps : (build? detour fromA).map (·.dependencies.entries) =
      some [("a", ["b", "*external*/lib"]), ("b", ["a"])] := by decide +kernel
  rw [hd, Option.map_some, Option.some.injEq] at hdeps
  exact ⟨d, hd, hdeps, fun name targets hmem target ht =>
    (hclosed d hd name targets hmem target ht).1⟩

end Diagram

end DepGraph
