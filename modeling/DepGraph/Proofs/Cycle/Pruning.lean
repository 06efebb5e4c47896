/-
  DepGraph — pruning dead ends.

  An edge from whose target a closed walk can be reached is never pruned, since
  its target has an edge of the same kind.  An edge that is left at the end has
  a target with an edge, and so on; without dead ends a closed walk is reached.

  * `mem_pruneDeadEnds`: the edges that are left are those that lead to a closed
    walk.
  * `noDeadEnds_pruneDeadEnds`: what is left has no dead ends.
  * `pruneDeadEnds_eq_filter`: they are left in order and as often as they occur.
  * `findCycles_filter`: a search is the same without edges to dead ends.
  * `pruneDeadEnds_eq_nil_iff`: nothing is left iff there is no closed walk.
-/
import DepGraph.Proofs.Cycle.Walk

namespace DepGraph.Cycle

open Relation

section
variable {edges : List Edge}

/-! ## From an edge list to a larger one -/

theorem Step.mono {more : List Edge} (h : edges ⊆ more) {a b : String} (hs : Step edges a b) :
    Step more a b := h hs

theorem LeadsToCycle.mono {more : List Edge} (h : edges ⊆ more) {a : String}
    (ha : LeadsToCycle edges a) : LeadsToCycle more a := by
  obtain ⟨c, hreach, hcycle⟩ := ha
  exact ⟨c, ReflTransGen.mono (fun _ _ => Step.mono h) _ _ hreach,
    TransGen.mono (fun _ _ => Step.mono h) _ _ hcycle⟩

/-! ## Leaving out edges to dead ends -/

/-- A node that leads to a closed walk has an edge to another such node. -/
theorem LeadsToCycle.exists_step {a : String} (h : LeadsToCycle edges a) :
    ∃ b, Step edges a b ∧ LeadsToCycle edges b := by
  obtain ⟨c, hreach, hcycle⟩ := h
  obtain ⟨b, hs, hb⟩ := TransGen.head'_iff.1 (TransGen.trans_right hreach hcycle)
  exact ⟨b, hs, c, hb, hcycle⟩

/-- A node that leads to such a node is one as well. -/
theorem LeadsToCycle.of_reach {a b : String} (hab : ReflTransGen (Step edges) a b)
    (h : LeadsToCycle edges b) : LeadsToCycle edges a := by
  obtain ⟨c, hreach, hcycle⟩ := h
  exact ⟨c, hab.trans hreach, hcycle⟩

section
variable {kept : List Edge} (hkept : ∀ e ∈ edges, hasSource edges e.2 = true → e ∈ kept)
include hkept

/-- If only edges to dead ends are left out, the edges to nodes that lead to a
  closed walk are kept. -/
theorem step_kept {a b : String} (hs : Step edges a b) (hb : LeadsToCycle edges b) :
    Step kept a b := by
  obtain ⟨c, hc, -⟩ := hb.exists_step
  exact hkept _ hs (hasSource_iff.2 ⟨c, hc⟩)

/-- The walks to such nodes are kept. -/
theorem reflTransGen_kept {a b : String} (hab : ReflTransGen (Step edges) a b)
    (hb : LeadsToCycle edges b) : ReflTransGen (Step kept) a b := by
  induction hab using ReflTransGen.head_induction_on with
  | refl => exact .refl
  | head hs hreach ih => exact .head (step_kept hkept hs (hb.of_reach hreach)) ih

/-- No closed walk is taken away from a node that leads to one. -/
theorem LeadsToCycle.survives {a : String} (h : LeadsToCycle edges a) : LeadsToCycle kept a := by
  obtain ⟨c, hreach, hcycle⟩ := h
  have hc : LeadsToCycle edges c := ⟨c, .refl, hcycle⟩
  -- the closed walk is an edge and a walk back
  obtain ⟨b, hs, hback⟩ := TransGen.head'_iff.1 hcycle
  have hs' := step_kept hkept hs (hc.of_reach hback)
  exact ⟨c, reflTransGen_kept hkept hreach hc, .head' hs' (reflTransGen_kept hkept hback hc)⟩

end

/-- A sweep leaves out only edges to dead ends. -/
theorem mem_prune_of_hasSource (e : Edge) (he : e ∈ edges) (hs : hasSource edges e.2 = true) :
    e ∈ prune edges := List.mem_filter.2 ⟨he, hs⟩

/-! ## All sweeps -/

theorem pruneDeadEnds_sublist : (pruneDeadEnds edges).Sublist edges := by
  fun_induction pruneDeadEnds edges with
  | case1 edges h ih => exact ih.trans List.filter_sublist
  | case2 edges h => exact List.Sublist.refl _

theorem noDeadEnds_pruneDeadEnds : NoDeadEnds (pruneDeadEnds edges) := by
  fun_induction pruneDeadEnds edges with
  | case1 edges h ih => exact ih
  | case2 edges h =>
    -- a sweep that removes nothing found every target with an edge
    have hlen : (prune edges).length = edges.length := by
      have := length_prune_le edges
      omega
    exact List.length_filter_eq_length_iff.1 hlen

theorem mem_pruneDeadEnds_of_leadsToCycle {e : Edge} (he : e ∈ edges)
    (h : LeadsToCycle edges e.2) : e ∈ pruneDeadEnds edges := by
  fun_induction pruneDeadEnds edges with
  | case1 edges hlt ih =>
    exact ih (step_kept mem_prune_of_hasSource he h) (h.survives mem_prune_of_hasSource)
  | case2 edges hlt => exact he

/-- **Pruning leaves the edges from whose target a closed walk can be reached.** -/
theorem mem_pruneDeadEnds {e : Edge} :
    e ∈ pruneDeadEnds edges ↔ e ∈ edges ∧ LeadsToCycle edges e.2 := by
  constructor
  · intro he
    have hs := noDeadEnds_pruneDeadEnds e he
    exact ⟨pruneDeadEnds_sublist.subset he,
      (leadsToCycle_of_noDeadEnds noDeadEnds_pruneDeadEnds hs).mono pruneDeadEnds_sublist.subset⟩
  · exact fun ⟨he, h⟩ => mem_pruneDeadEnds_of_leadsToCycle he h

open Classical in
/-- What is left is left in order, and as often as it occurs. -/
theorem pruneDeadEnds_eq_filter (edges : List Edge) :
    pruneDeadEnds edges = edges.filter fun e => LeadsToCycle edges e.2 := by
  fun_induction pruneDeadEnds edges with
  | case1 edges h ih =>
    rw [ih, prune, List.filter_filter]
    refine List.filter_congr fun e _ => ?_
    rw [Bool.eq_iff_iff, Bool.and_eq_true, decide_eq_true_eq, decide_eq_true_eq]
    constructor
    · rintro ⟨hlead, -⟩
      exact hlead.mono (List.filter_subset_self _)
    · intro hlead
      obtain ⟨c, hc, -⟩ := hlead.exists_step
      exact ⟨hlead.survives mem_prune_of_hasSource, hasSource_iff.2 ⟨c, hc⟩⟩
  | case2 edges h =>
    -- without dead ends every edge leads to a closed walk
    have hself : pruneDeadEnds edges = edges := by rw [pruneDeadEnds, if_neg h]
    have hd : NoDeadEnds edges := hself ▸ noDeadEnds_pruneDeadEnds
    refine (List.filter_eq_self.2 fun e he => ?_).symm
    exact decide_eq_true (leadsToCycle_of_noDeadEnds hd (hd e he))

theorem pruneDeadEnds_eq_nil_iff : pruneDeadEnds edges = [] ↔ ¬ HasCycle edges := by
  rw [List.eq_nil_iff_forall_not_mem]
  constructor
  · rintro h ⟨a, ha⟩
    obtain ⟨b, hs, hb⟩ := TransGen.head'_iff.1 ha
    exact h (a, b) (mem_pruneDeadEnds.2 ⟨hs, a, hb, ha⟩)
  · intro h e he
    obtain ⟨-, c, -, hc⟩ := mem_pruneDeadEnds.1 he
    exact h ⟨c, hc⟩

/-! ## Edge lists with the same cycles -/

/-- Pruning is not changed by leaving out edges to dead ends before. -/
theorem pruneDeadEnds_filter {p : Edge → Bool}
    (h : ∀ e ∈ edges, hasSource edges e.2 = true → p e = true) :
    pruneDeadEnds (edges.filter p) = pruneDeadEnds edges := by
  classical
  have hkept : ∀ e ∈ edges, hasSource edges e.2 = true → e ∈ edges.filter p :=
    fun e he hs => List.mem_filter.2 ⟨he, h e he hs⟩
  rw [pruneDeadEnds_eq_filter, pruneDeadEnds_eq_filter, List.filter_filter]
  refine List.filter_congr fun e he => ?_
  rw [Bool.eq_iff_iff, Bool.and_eq_true, decide_eq_true_eq, decide_eq_true_eq]
  constructor
  · rintro ⟨hlead, -⟩
    exact hlead.mono (List.filter_subset_self _)
  · intro hlead
    obtain ⟨c, hc, -⟩ := hlead.exists_step
    exact ⟨hlead.survives hkept, h e he (hasSource_iff.2 ⟨c, hc⟩)⟩

theorem search?_of_nil (h : pruneDeadEnds edges = []) : search? edges = some [] := by
  rw [search?]
  split
  · rfl
  · next e rest h' => cases h.symm.trans h'

theorem search?_of_cons {e : Edge} {rest : List Edge} (h : pruneDeadEnds edges = e :: rest) :
    search? edges =
      match walk (e :: rest) e.1 with
      | (_, none) => none
      | (nodes, some again) =>
        (search? (dropFirstEdges (e.1 :: nodes.drop 1) (e :: rest))).map
          (closeWalk nodes again :: ·) := by
  rw [search?]
  split
  · next h' => cases h'.symm.trans h
  · next e' rest' h' =>
    obtain ⟨rfl, rfl⟩ := List.cons.inj (h'.symm.trans h)
    rfl

/-- A search sees only what pruning leaves. -/
theorem search?_congr {other : List Edge} (h : pruneDeadEnds edges = pruneDeadEnds other) :
    search? edges = search? other := by
  cases hp : pruneDeadEnds edges with
  | nil => rw [search?_of_nil hp, search?_of_nil (h ▸ hp)]
  | cons e rest => rw [search?_of_cons hp, search?_of_cons (h ▸ hp)]

/-- A search finds the same cycles without edges to dead ends. -/
theorem findCycles_filter {p : Edge → Bool}
    (h : ∀ e ∈ edges, hasSource edges e.2 = true → p e = true) :
    findCycles (edges.filter p) = findCycles edges := by
  rw [findCycles, findCycles, search?_congr (pruneDeadEnds_filter h)]

end

end DepGraph.Cycle
