/-
  DepGraph — the cycles that are reported.

  A walk follows the first edge out of each of its nodes, and ends when a node comes
  again; until then no node comes twice.  What is reported is the part of the walk
  from that node on.  The first edges of all nodes of the walk are removed before the
  next search, so what later walks follow are other occurrences of edges.

  * `links`: the pairs of neighbours in a list of nodes.
  * `IsWalk`, `isWalk_walk`: what a walk that closes is.
  * `IsWalk.perm_dropFirstEdges`: its links, and the edges that are left after it.
  * `IsReport`, `isReport_of_search?`: what a search finds.
  * `findCycles_simple_disjoint`: every reported cycle is a closed walk without
    repetitions, and no occurrence of an edge is used twice.
-/
import Mathlib.Data.List.Chain
import DepGraph.Proofs.Cycle.Verdict

namespace DepGraph.Cycle

/-- The pairs of neighbours in a list of nodes. -/
def links (nodes : List String) : List Edge := nodes.zip nodes.tail

section
variable {edges : List Edge} {nodes : List String} {a b node again : String}

/-! ## Neighbours -/

theorem links_sublist_cons (a : String) (nodes : List String) :
    (links nodes).Sublist (links (a :: nodes)) := by
  cases nodes with
  | nil => exact List.Sublist.refl _
  | cons b rest => exact List.sublist_cons_self _ _

theorem links_sublist {tail : List String} (h : tail <:+ nodes) :
    (links tail).Sublist (links nodes) := by
  obtain ⟨start, rfl⟩ := h
  induction start with
  | nil => exact List.Sublist.refl _
  | cons a rest ih => exact ih.trans (links_sublist_cons a _)

/-- Every node but the last one is the first end of one link. -/
theorem map_fst_links (nodes : List String) (last : String) :
    (links (nodes ++ [last])).map Prod.fst = nodes := by
  induction nodes with
  | nil => rfl
  | cons a rest ih =>
    cases rest with
    | nil => rfl
    | cons b rest => exact congrArg (a :: ·) ih

theorem rel_of_mem_links {R : String → String → Prop} (h : nodes.IsChain R) {e : Edge}
    (he : e ∈ links nodes) : R e.1 e.2 := by
  induction nodes with
  | nil => exact absurd he List.not_mem_nil
  | cons a rest ih =>
    cases rest with
    | nil => exact absurd he List.not_mem_nil
    | cons b rest =>
      obtain ⟨hab, hrest⟩ := List.isChain_cons_cons.1 h
      rcases List.mem_cons.1 he with rfl | he
      · exact hab
      · exact ih hrest he

/-! ## Walks that close -/

/-- The nodes of a walk are distinct; each leads by its first edge to the next one,
  and the last one to a node of the walk. -/
structure IsWalk (edges : List Edge) (nodes : List String) (again : String) : Prop where
  chain : (nodes ++ [again]).IsChain fun a b => next? edges a = some b
  nodup : nodes.Nodup
  again_mem : again ∈ nodes

/-- Going on with a walk keeps the nodes that were met, last first. -/
theorem isWalk_walkFrom {fuel : Nat} {before : List String}
    (hchain : (node :: before).IsChain fun b a => next? edges a = some b) (hnodup : before.Nodup)
    (h : walkFrom edges fuel before node = (nodes, some again)) :
    IsWalk edges nodes.reverse again ∧ before <:+ nodes := by
  induction fuel generalizing before node with
  | zero => simp [walkFrom] at h
  | succ fuel ih =>
    unfold walkFrom at h
    split at h
    · next hmem =>
      obtain ⟨rfl, rfl⟩ : before = nodes ∧ node = again := by simpa using h
      refine ⟨⟨?_, List.nodup_reverse.2 hnodup, List.mem_reverse.2 hmem⟩, List.suffix_refl _⟩
      rw [← List.reverse_cons]
      exact List.isChain_reverse.2 hchain
    · next hnew =>
      split at h
      · simp at h
      · next target hnext =>
        obtain ⟨hwalk, hsuffix⟩ := ih (List.isChain_cons_cons.2 ⟨hnext, hchain⟩)
          (List.nodup_cons.2 ⟨hnew, hnodup⟩) h
        exact ⟨hwalk, (List.suffix_cons node before).trans hsuffix⟩

/-- A walk that closes, and begins with the node from which it starts. -/
theorem isWalk_walk (h : walk edges node = (nodes, some again)) :
    IsWalk edges nodes again ∧ node :: nodes.drop 1 = nodes := by
  rcases hrun : walkFrom edges (edges.length + 2) [] node with ⟨met, found⟩
  rw [walk, hrun, Prod.mk.injEq] at h
  obtain ⟨rfl, rfl⟩ := h
  rw [walkFrom, if_neg List.not_mem_nil] at hrun
  split at hrun
  · simp at hrun
  · next target hnext =>
    obtain ⟨hwalk, start, rfl⟩ := isWalk_walkFrom (List.isChain_pair.2 hnext)
      (List.nodup_singleton node) hrun
    exact ⟨hwalk, by simp⟩

/-! ## The edges of a walk -/

theorem find?_of_next? (h : next? edges a = some b) : edges.find? (·.1 == a) = some (a, b) := by
  obtain ⟨e, he, rfl⟩ := Option.map_eq_some_iff.1 h
  obtain rfl : e.1 = a := by simpa using List.find?_some he
  exact he

theorem find?_eraseP_of_ne (h : b ≠ a) :
    (edges.eraseP (·.1 == a)).find? (·.1 == b) = edges.find? (·.1 == b) := by
  induction edges with
  | nil => rfl
  | cons e rest ih =>
    by_cases ha : e.1 = a
    · rw [List.eraseP_cons_of_pos (by simpa using ha),
        List.find?_cons_of_neg (by simpa [ha] using h.symm)]
    · rw [List.eraseP_cons_of_neg (by simpa using ha), List.find?_cons, List.find?_cons, ih]

theorem perm_eraseP {e : Edge} (h : edges.find? (·.1 == a) = some e) :
    edges.Perm (e :: edges.eraseP (·.1 == a)) := by
  obtain ⟨he, before, after, rfl, hbefore⟩ := List.find?_eq_some_iff_append.1 h
  have hrest : (e :: after).eraseP (·.1 == a) = after := List.eraseP_cons_of_pos he
  rw [List.eraseP_append_right _ fun x hx => by simpa using hbefore x hx, hrest]
  exact List.perm_middle

/-- Distinct first edges, and what is left when they are removed. -/
theorem perm_dropFirstEdges {firsts : List Edge} (hnodup : (firsts.map Prod.fst).Nodup)
    (hfirst : ∀ e ∈ firsts, edges.find? (·.1 == e.1) = some e) :
    edges.Perm (firsts ++ dropFirstEdges (firsts.map Prod.fst) edges) := by
  induction firsts generalizing edges with
  | nil => exact List.Perm.refl _
  | cons e rest ih =>
    obtain ⟨hnew, hrest⟩ := List.nodup_cons.1 hnodup
    rw [List.forall_mem_cons] at hfirst
    -- removing the edge leaves the first edges out of other nodes
    have hkept : ∀ e' ∈ rest, (edges.eraseP (·.1 == e.1)).find? (·.1 == e'.1) = some e' := by
      intro e' he'
      have hne : e'.1 ≠ e.1 := fun heq => hnew (heq ▸ List.mem_map_of_mem he')
      rw [find?_eraseP_of_ne hne, hfirst.2 e' he']
    exact (perm_eraseP hfirst.1).trans ((ih hrest hkept).cons e)

/-! ## What is reported of a walk -/

theorem closeWalk_suffix (nodes : List String) (again : String) :
    closeWalk nodes again <:+ nodes ++ [again] := by
  obtain ⟨before, hbefore⟩ := List.dropWhile_suffix (l := nodes) (· != again)
  exact ⟨before, by rw [closeWalk, ← List.append_assoc, hbefore]⟩

namespace IsWalk

/-- The links of a walk are the edges that it takes away. -/
theorem perm_dropFirstEdges (h : IsWalk edges nodes again) :
    edges.Perm (links (nodes ++ [again]) ++ dropFirstEdges nodes edges) := by
  have hnodes := map_fst_links nodes again
  have hfirst : ∀ e ∈ links (nodes ++ [again]), edges.find? (·.1 == e.1) = some e :=
    fun e he => find?_of_next? (rel_of_mem_links h.chain he)
  have hperm := Cycle.perm_dropFirstEdges (hnodes.symm ▸ h.nodup) hfirst
  rwa [hnodes] at hperm

/-- The part of a walk from the node that comes again starts with this node. -/
theorem exists_closeWalk_eq (h : IsWalk edges nodes again) :
    ∃ rest, closeWalk nodes again = again :: rest ++ [again] ∧ (again :: rest).Nodup := by
  obtain ⟨before, after, rfl⟩ := List.append_of_mem h.again_mem
  obtain ⟨-, hafter, hdisjoint⟩ := List.nodup_append.1 h.nodup
  have hdrop : (before ++ again :: after).dropWhile (· != again) = again :: after := by
    rw [List.dropWhile_append_of_pos fun x hx => by
      simpa using hdisjoint x hx again List.mem_cons_self]
    simp
  exact ⟨after, by rw [closeWalk, hdrop], hafter⟩

end IsWalk

/-! ## All cycles of a search -/

/-- Closed walks without repetitions, whose links together are a part of the edges. -/
structure IsReport (edges : List Edge) (cycles : List (List String)) : Prop where
  simple : ∀ cycle ∈ cycles, ∃ node rest, cycle = node :: rest ++ [node] ∧ (node :: rest).Nodup
  subperm : (cycles.flatMap links).Subperm edges

/-- One search more: its cycle, and those found in the edges that it leaves. -/
theorem IsWalk.isReport_cons {cycles : List (List String)} (h : IsWalk edges nodes again)
    (hlater : IsReport (dropFirstEdges nodes edges) cycles) :
    IsReport edges (closeWalk nodes again :: cycles) where
  simple := by
    rw [List.forall_mem_cons]
    exact ⟨⟨again, h.exists_closeWalk_eq⟩, hlater.simple⟩
  subperm := by
    rw [List.flatMap_cons]
    have hlinks := (links_sublist (closeWalk_suffix nodes again)).subperm
    exact (hlinks.append hlater.subperm).trans h.perm_dropFirstEdges.symm.subperm

theorem IsReport.of_sublist {more : List Edge} {cycles : List (List String)}
    (h : IsReport edges cycles) (hsub : edges.Sublist more) : IsReport more cycles :=
  ⟨h.simple, h.subperm.trans hsub.subperm⟩

theorem isReport_of_search? {cycles : List (List String)} (h : search? edges = some cycles) :
    IsReport edges cycles := by
  fun_induction search? edges generalizing cycles with
  | case1 edges hpruned =>
    obtain rfl : [] = cycles := Option.some.inj h
    exact ⟨fun _ hc => absurd hc List.not_mem_nil, List.nil_subperm⟩
  | case2 edges e rest hpruned nodes hwalk => cases h
  | case3 edges e rest hpruned nodes again hwalk ih =>
    obtain ⟨later, hlater, rfl⟩ := Option.map_eq_some_iff.1 h
    obtain ⟨his, hnodes⟩ := isWalk_walk hwalk
    rw [hnodes] at hlater ih
    exact (hpruned ▸ his.isReport_cons (ih hlater)).of_sublist pruneDeadEnds_sublist

end

/-- **Reported cycles are closed walks without repetitions, and share no occurrence of
  an edge**: a cycle is some distinct nodes with the first one at the end again, its
  links are edges, and all links together are, up to order, a part of the edges; so an
  edge is linked by no more cycles than it occurs. -/
theorem findCycles_simple_disjoint (edges : List Edge) :
    (∀ cycle ∈ findCycles edges,
      (∃ node rest, cycle = node :: rest ++ [node] ∧ (node :: rest).Nodup) ∧
        ∀ e ∈ links cycle, e ∈ edges) ∧
    ((findCycles edges).flatMap links).Subperm edges ∧
    ∀ e, ((findCycles edges).flatMap links).count e ≤ edges.count e := by
  have h := isReport_of_search? (search?_eq edges)
  refine ⟨fun cycle hcycle => ⟨h.simple cycle hcycle, fun e he => ?_⟩, h.subperm,
    h.subperm.count_le⟩
  exact h.subperm.subset (List.mem_flatMap.2 ⟨cycle, hcycle, he⟩)

end DepGraph.Cycle
