/-
  DepGraph — which edges are drawn.

  Said of the view that is chosen, without the stages: which pairs of whole
  names are the edges of a graph.  What is left out by the filters, or as
  external, takes no part in chains from the roots.

  * `Refers`: an entity has a target that is drawn under a name.
  * `Drawn`: a pair is an edge.
  * `count_edges_whole`: a graph has exactly these edges, each once.
  * `count_edges_tagDetour`: why the links of chains are those of `Refers`.
-/
import DepGraph.Proofs.Diagram.Stages

namespace DepGraph

open Relation

/-- The name under which a target is drawn: one that is no entity is tagged,
  unless it carries a tag. -/
def drawnName (raw : Dependencies) (target : String) : String :=
  if target ∈ raw.keys ∨ isExternal target = true then target else externalTag ++ target

/-- An entity has a target that is drawn under a name; if external targets are
  left out, the target is an entity itself. -/
def Refers (raw : Dependencies) (exclude : Bool) (name drawn : String) : Prop :=
  ∃ target ∈ raw.targets name, drawnName raw target = drawn ∧
    (exclude = true → target ∈ raw.keys)

/-- A link of a chain: to an accepted entity. -/
def Follows (raw : Dependencies) (o : DiagramOptions) (link : String → String → Prop)
    (name next : String) : Prop :=
  link name next ∧ next ∈ raw.keys ∧ o.results.passes next = true

/-- Roots are not asked for, or a chain of links leads from one to an entity. -/
def Rooted (raw : Dependencies) (o : DiagramOptions) (link : String → String → Prop)
    (name : String) : Prop :=
  o.roots.isActive = false ∨
    ∃ r ∈ raw.keys, o.results.passes r = true ∧ o.roots.passes r = true ∧
      ReflTransGen (Follows raw o link) r name

/-- A pair of names is an edge of a graph with whole names; `link` tells what
  the links of chains from the roots are. -/
structure Drawn (raw : Dependencies) (o : DiagramOptions) (link : String → String → Prop)
    (a b : String) : Prop where
  ne : a ≠ b
  mem : a ∈ raw.keys
  refers : Refers raw o.excludeExternal a b
  passes : o.results.passes a = true ∧ o.results.passes b = true
  rooted : Rooted raw o link a

namespace Diagram

theorem drawnName_eq (raw : Dependencies) (target : String) :
    drawnName raw target = raw.markTarget target := by
  unfold drawnName Dependencies.markTarget markName
  by_cases hk : target ∈ raw.keys
  · simp [hk, OrderedMap.contains_iff_mem.2 hk]
  · have hc : raw.contains target = false :=
      Bool.eq_false_iff.2 fun h => hk (OrderedMap.contains_iff_mem.1 h)
    simp [hk, hc]

theorem refers_iff {raw : Dependencies} {exclude : Bool} {a b : String} :
    Refers raw exclude a b ↔ b ∈ (raw.markExternal exclude).targets a := by
  simp only [Refers, drawnName_eq, Dependencies.mem_targets_markExternal]

section
variable {s : Survey} {o : DiagramOptions}

theorem leads_accepted_iff {a b : String} :
    Dependencies.Leads (accepted s o) a b ↔
      (o.results.passes a = true ∧ o.results.passes b = true) ∧
        Refers (select s o.byPaths).1 o.excludeExternal a b := by
  rw [leads_accepted, refers_iff, and_assoc]

/-- Chains of accepted targets that end at an entity run through entities. -/
theorem reflTransGen_follows_iff {r a : String} (hr : r ∈ (accepted s o).keys)
    (ha : a ∈ (accepted s o).keys) :
    ReflTransGen (Dependencies.Leads (accepted s o)) r a ↔
      ReflTransGen (Follows (select s o.byPaths).1 o
        (Refers (select s o.byPaths).1 o.excludeExternal)) r a := by
  constructor
  · intro h
    induction h with
    | refl => exact .refl
    | @tail c a _ hstep ih =>
      -- the entity before has a target, so it is an accepted entity as well
      have hc : c ∈ (accepted s o).keys := Dependencies.mem_keys_of_mem_targets hstep
      obtain ⟨hak, hap⟩ := mem_keys_accepted.1 ha
      exact (ih hc).tail ⟨(leads_accepted_iff.1 hstep).2, hak, hap⟩
  · intro h
    have key : ReflTransGen (Dependencies.Leads (accepted s o)) r a ∧ a ∈ (accepted s o).keys := by
      clear ha
      induction h with
      | refl => exact ⟨.refl, hr⟩
      | tail _ hstep ih =>
        obtain ⟨hlink, hk, hp⟩ := hstep
        have hc := (mem_keys_accepted.1 ih.2).2
        exact ⟨ih.1.tail (leads_accepted_iff.2 ⟨⟨hc, hp⟩, hlink⟩), mem_keys_accepted.2 ⟨hk, hp⟩⟩
    exact key.1

theorem rooted_iff {a : String} (ha : a ∈ (accepted s o).keys) :
    (∃ r ∈ (accepted s o).keys, o.roots.passes r = true ∧
        ReflTransGen (Dependencies.Leads (accepted s o)) r a) ↔
      Rooted (select s o.byPaths).1 o (Refers (select s o.byPaths).1 o.excludeExternal) a := by
  constructor
  · rintro ⟨r, hr, hroot, hchain⟩
    obtain ⟨hk, hp⟩ := mem_keys_accepted.1 hr
    exact .inr ⟨r, hk, hp, hroot, (reflTransGen_follows_iff hr ha).1 hchain⟩
  · rintro (hall | ⟨r, hk, hp, hroot, hchain⟩)
    · exact ⟨a, ha, passes_of_not_isActive hall a, .refl⟩
    · have hr := mem_keys_accepted.2 ⟨hk, hp⟩
      exact ⟨r, hr, hroot, (reflTransGen_follows_iff hr ha).2 hchain⟩

theorem drawn_iff {a b : String} :
    Drawn (select s o.byPaths).1 o (Refers (select s o.byPaths).1 o.excludeExternal) a b ↔
      (a, b) ∈ (dependenciesOf s o).edges := by
  rw [Dependencies.mem_edges]
  constructor
  · rintro ⟨hne, hk, hrefers, hpass, hrooted⟩
    have ha := mem_keys_accepted.2 ⟨hk, hpass.1⟩
    exact ⟨hne, leads_dependenciesOf.2
      ⟨(rooted_iff ha).2 hrooted, leads_accepted_iff.2 ⟨hpass, hrefers⟩⟩⟩
  · rintro ⟨hne, ht⟩
    obtain ⟨hrooted, hstep⟩ := leads_dependenciesOf.1 ht
    have ha : a ∈ (accepted s o).keys := Dependencies.mem_keys_of_mem_targets hstep
    obtain ⟨hpass, hrefers⟩ := leads_accepted_iff.1 hstep
    exact ⟨hne, (mem_keys_accepted.1 ha).1, hrefers, hpass, (rooted_iff ha).1 hrooted⟩

end

/-- **The edges of a graph with whole names are the pairs that are drawn**, each
  of them once. -/
theorem count_edges_whole (s : Survey) (o : DiagramOptions) :
    ∃ d, build? s o.whole = some d ∧ ∀ a b,
      (d.edges.count (a, b) = 1 ↔
        Drawn (select s o.byPaths).1 o (Refers (select s o.byPaths).1 o.excludeExternal) a b) ∧
      ((a, b) ∈ d.edges →
        Drawn (select s o.byPaths).1 o (Refers (select s o.byPaths).1 o.excludeExternal) a b) := by
  obtain ⟨d, hd, -, hedges⟩ := exists_build?_whole s o
  refine ⟨d, hd, fun a b => ?_⟩
  rw [hedges, drawn_iff]
  refine ⟨⟨fun h => List.count_pos_iff.1 (by omega), fun h => ?_⟩, id⟩
  exact List.count_eq_one_of_mem (Dependencies.nodup_edges _) h

/-! ## Links through names that are left out

If the links of chains may run through targets that are left out as external,
the pairs are too many: an entity whose own name is tagged is the drawn name of
a target that is no entity. -/

/-- An entity with a tagged name, and one with a target that gets this name. -/
def tagDetour : Survey :=
  { Survey.empty "/" with
    paths := OrderedMap.ofList [("q", ["x"]), ("*external*/x", ["b"]), ("b", [])] }

/-- What is reached from `q`, without what is external. -/
def fromQ : DiagramOptions :=
  { excludeExternal := true, roots := ⟨[.char (.literal .exact 113)], []⟩ }

/-- A pair that would be drawn if chains ran through targets left out is no edge. -/
theorem count_edges_tagDetour :
    Drawn (select tagDetour fromQ.byPaths).1 fromQ
        (Refers (select tagDetour fromQ.byPaths).1 false) "*external*/x" "b" ∧
      ∃ d, build? tagDetour fromQ.whole = some d ∧ d.edges.count ("*external*/x", "b") = 0 := by
  constructor
  · refine ⟨by decide, by decide, ⟨"b", by decide, by decide, by decide⟩,
      by decide +kernel, .inr ⟨"q", by decide, by decide +kernel, by decide +kernel, ?_⟩⟩
    exact .single ⟨⟨"x", by decide, by decide, by decide⟩, by decide, by decide +kernel⟩
  · obtain ⟨d, hd, -, hedges⟩ := exists_build?_whole tagDetour fromQ
    refine ⟨d, hd, ?_⟩
    rw [hedges]
    decide +kernel

end Diagram

end DepGraph
