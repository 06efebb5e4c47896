/-
  DepGraph — the cycles that are missed.

  A search removes the edges of every walk that it takes: those of the cycle that it
  reports, and those of the lead-in, by which the walk came to this cycle.  Edges
  without dead ends are never pruned, so a closed walk stays whole until one of its
  edges is walked, and when the search ends none is left.

  * `walks`, `walks_induction`: the walks of a search, and induction on them.
  * `findCycles_eq_walks`: the cycles that are found are read off the walks.
  * `leadIn`, `IsWalk.links_eq`: a walk is its lead-in and the reported cycle.
  * `exists_walked`: some edge of every part without dead ends is walked.
  * `closed_walk_meets_walks`: so is some edge of every closed walk.
  * `missed_closed_walk`: it need not be an edge of a reported cycle.
-/
import DepGraph.Proofs.Cycle.Reported

namespace DepGraph.Cycle

/-! ## The walks of a search -/

/-- The walks of a search, each with the node that comes again. -/
def walks (edges : List Edge) : List (List String × String) :=
  match h : pruneDeadEnds edges with
  | [] => []
  | e :: rest =>
    match walk (e :: rest) e.1 with
    | (_, none) => []
    | (nodes, some again) =>
      (nodes, again) :: walks (dropFirstEdges (e.1 :: nodes.drop 1) (e :: rest))
  termination_by edges.length
  decreasing_by
    have h₁ := length_pruneDeadEnds_le edges
    rw [h] at h₁
    exact Nat.lt_of_lt_of_le (length_dropFirstEdges_lt e _ rest) h₁

/-- What leads a walk to the node that comes again. -/
def leadIn (nodes : List String) (again : String) : List String :=
  nodes.takeWhile (· != again) ++ [again]

/-- Nodes of which each has an edge to the next one, and the last one is the first. -/
structure IsClosedWalk (edges : List Edge) (nodes : List String) : Prop where
  chain : nodes.IsChain (Step edges)
  closes : ∃ node rest, nodes = node :: rest ++ [node]

section
variable {edges part : List Edge} {nodes : List String} {again : String}

theorem walks_of_nil (h : pruneDeadEnds edges = []) : walks edges = [] := by
  rw [walks]
  split
  · rfl
  · next e rest h' => cases h.symm.trans h'

theorem walks_of_cons {e : Edge} {rest : List Edge} (h : pruneDeadEnds edges = e :: rest)
    (hwalk : walk (e :: rest) e.1 = (nodes, some again)) :
    walks edges = (nodes, again) :: walks (dropFirstEdges nodes (e :: rest)) := by
  rw [walks]
  split
  · next h' => cases h'.symm.trans h
  · next e' rest' h' =>
    obtain ⟨rfl, rfl⟩ := List.cons.inj (h'.symm.trans h)
    simp only [hwalk, (isWalk_walk hwalk).2]

/-- Induction on the walks of a search: it is over, or takes a walk in what pruning
  leaves and goes on with the edges that the walk leaves. -/
theorem walks_induction {P : List Edge → Prop}
    (done : ∀ edges, pruneDeadEnds edges = [] → P edges)
    (more : ∀ edges nodes again, IsWalk (pruneDeadEnds edges) nodes again →
      walks edges = (nodes, again) :: walks (dropFirstEdges nodes (pruneDeadEnds edges)) →
      P (dropFirstEdges nodes (pruneDeadEnds edges)) → P edges)
    (edges : List Edge) : P edges := by
  fun_induction walks edges with
  | case1 edges hpruned => exact done edges hpruned
  | case2 edges e rest hpruned nodes hwalk =>
    -- after pruning every walk closes
    obtain ⟨nodes', again, hcloses⟩ := walk_pruned hpruned
    simp [hcloses] at hwalk
  | case3 edges e rest hpruned nodes again hwalk ih =>
    obtain ⟨his, hnodes⟩ := isWalk_walk hwalk
    rw [hnodes] at ih
    refine more edges nodes again ?_ ?_ ?_
    · rwa [hpruned]
    · rw [hpruned, walks_of_cons hpruned hwalk]
    · rwa [hpruned]

theorem findCycles_eq_walks (edges : List Edge) :
    findCycles edges = (walks edges).map fun w => closeWalk w.1 w.2 := by
  have hsearch : search? edges = some ((walks edges).map fun w => closeWalk w.1 w.2) := by
    fun_induction search? edges with
    | case1 edges hpruned => rw [walks_of_nil hpruned, List.map_nil]
    | case2 edges e rest hpruned nodes hwalk =>
      obtain ⟨nodes', again, hcloses⟩ := walk_pruned hpruned
      simp [hcloses] at hwalk
    | case3 edges e rest hpruned nodes again hwalk ih =>
      rw [(isWalk_walk hwalk).2] at ih ⊢
      rw [walks_of_cons hpruned hwalk, ih, Option.map_some, List.map_cons]
  rw [findCycles, hsearch, Option.getD_some]

theorem IsWalk.dropFirstEdges_subset (h : IsWalk edges nodes again) :
    dropFirstEdges nodes edges ⊆ edges :=
  fun _ he => h.perm_dropFirstEdges.symm.subset (List.mem_append_right _ he)

theorem isChain_of_mem_walks {w : List String × String} (hw : w ∈ walks edges) :
    (w.1 ++ [w.2]).IsChain (Step edges) := by
  induction edges using walks_induction with
  | done edges hpruned =>
    rw [walks_of_nil hpruned] at hw
    exact absurd hw List.not_mem_nil
  | more edges nodes again his hwalks ih =>
    have hsub : pruneDeadEnds edges ⊆ edges := pruneDeadEnds_sublist.subset
    rw [hwalks] at hw
    rcases List.mem_cons.1 hw with rfl | hw
    · exact his.chain.imp fun a b hnext => (step_of_next? hnext).mono hsub
    · exact (ih hw).imp fun a b hs => (hs.mono his.dropFirstEdges_subset).mono hsub

/-! ## Lead-ins -/

theorem links_append_cons (before after : List String) (node : String) :
    links (before ++ node :: after) = links (before ++ [node]) ++ links (node :: after) := by
  induction before with
  | nil => rfl
  | cons a rest ih =>
    cases rest with
    | nil => rfl
    | cons b rest => exact congrArg ((a, b) :: ·) ih

/-- A walk is its lead-in, and then the cycle that is reported of it. -/
theorem IsWalk.links_eq (h : IsWalk edges nodes again) :
    links (nodes ++ [again]) = links (leadIn nodes again) ++ links (closeWalk nodes again) := by
  obtain ⟨rest, hclose, -⟩ := h.exists_closeWalk_eq
  have hnodes : nodes ++ [again] = nodes.takeWhile (· != again) ++ again :: (rest ++ [again]) := by
    rw [← List.cons_append, ← hclose, closeWalk, ← List.append_assoc,
      List.takeWhile_append_dropWhile]
  rw [hnodes, links_append_cons, leadIn, hclose, List.cons_append]

/-! ## What escapes a search -/

/-- Edges without dead ends are not pruned. -/
theorem NoDeadEnds.subset_pruneDeadEnds (hd : NoDeadEnds part) (hsub : part ⊆ edges) :
    part ⊆ pruneDeadEnds edges := by
  intro e he
  have hlead : LeadsToCycle part e.2 := leadsToCycle_of_noDeadEnds hd (hd e he)
  exact mem_pruneDeadEnds.2 ⟨hsub he, hlead.mono hsub⟩

/-- Of edges without dead ends, at least one is walked. -/
theorem exists_walked (hd : NoDeadEnds part) (hne : part ≠ []) (hsub : part ⊆ edges) :
    ∃ w ∈ walks edges, ∃ e ∈ part,
      e ∈ links (leadIn w.1 w.2) ∨ e ∈ links (closeWalk w.1 w.2) := by
  induction edges using walks_induction with
  | done edges hpruned =>
    exact absurd (List.subset_nil.1 (hpruned ▸ hd.subset_pruneDeadEnds hsub)) hne
  | more edges nodes again his hwalks ih =>
    rw [hwalks]
    by_cases hmeets : ∃ e ∈ part, e ∈ links (nodes ++ [again])
    · obtain ⟨e, he, hlink⟩ := hmeets
      rw [his.links_eq, List.mem_append] at hlink
      exact ⟨_, List.mem_cons_self, e, he, hlink⟩
    · -- none of the edges is removed, so a later walk takes one of them
      have hleft : part ⊆ dropFirstEdges nodes (pruneDeadEnds edges) := by
        intro e he
        have hmem := his.perm_dropFirstEdges.subset (hd.subset_pruneDeadEnds hsub he)
        exact (List.mem_append.1 hmem).resolve_left fun hlink => hmeets ⟨e, he, hlink⟩
      obtain ⟨w, hw, hwalked⟩ := ih hleft
      exact ⟨w, List.mem_cons_of_mem _ hw, hwalked⟩

theorem map_snd_links (first : String) (nodes : List String) :
    (links (first :: nodes)).map Prod.snd = nodes :=
  List.map_snd_zip (by simp)

namespace IsClosedWalk

theorem links_subset (h : IsClosedWalk edges nodes) : links nodes ⊆ edges :=
  fun _ he => rel_of_mem_links h.chain he

theorem links_ne_nil (h : IsClosedWalk edges nodes) : links nodes ≠ [] := by
  obtain ⟨node, rest, rfl⟩ := h.closes
  intro hnil
  have hsources := map_fst_links (node :: rest) node
  rw [hnil] at hsources
  cases hsources

/-- Every node of a closed walk has an edge of the walk. -/
theorem noDeadEnds_links (h : IsClosedWalk edges nodes) : NoDeadEnds (links nodes) := by
  obtain ⟨node, rest, rfl⟩ := h.closes
  intro e he
  have htarget : e.2 ∈ rest ++ [node] := by
    rw [← map_snd_links node (rest ++ [node])]
    exact List.mem_map_of_mem he
  have hsource : e.2 ∈ (links (node :: rest ++ [node])).map Prod.fst := by
    rw [map_fst_links]
    simpa [or_comm] using htarget
  obtain ⟨⟨a, b⟩, hab, hfst⟩ := List.mem_map.1 hsource
  exact hasSource_iff.2 ⟨b, hfst ▸ hab⟩

end IsClosedWalk

end

/-- **No closed walk goes unnoticed**: every closed walk of a graph has an edge that
  the search walks, either on the cycle that it reports of this walk or on the
  lead-in to this cycle. -/
theorem closed_walk_meets_walks (edges : List Edge) (nodes : List String)
    (h : IsClosedWalk edges nodes) :
    findCycles edges = ((walks edges).map fun w => closeWalk w.1 w.2) ∧
    (∀ w ∈ walks edges, (w.1 ++ [w.2]).IsChain (Step edges)) ∧
    ∃ w ∈ walks edges, ∃ e ∈ links nodes,
      e ∈ links (closeWalk w.1 w.2) ∨ e ∈ links (leadIn w.1 w.2) := by
  obtain ⟨w, hw, e, he, hwalked⟩ :=
    exists_walked h.noDeadEnds_links h.links_ne_nil h.links_subset
  exact ⟨findCycles_eq_walks edges, fun w => isChain_of_mem_walks, w, hw, e, he, hwalked.symm⟩

/-- A cycle with a way into it, and back from it. -/
def detour : List Edge := [("x", "a"), ("a", "b"), ("b", "a"), ("a", "x")]

theorem isClosedWalk_detour : IsClosedWalk detour ["x", "a", "x"] :=
  ⟨by simp [Step, detour], "x", ["a"], rfl⟩

theorem closed_walk_meets_walks_detour :
    IsClosedWalk detour ["x", "a", "x"] ∧ walks detour = [(["x", "a", "b"], "a")] ∧
      ∃ e ∈ links ["x", "a", "x"], e ∈ links ["a", "b", "a"] ∨ e ∈ links ["x", "a"] := by
  obtain ⟨-, -, w, hw, hwalked⟩ :=
    closed_walk_meets_walks detour ["x", "a", "x"] isClosedWalk_detour
  have hwalks : walks detour = [(["x", "a", "b"], "a")] := by decide +kernel
  rw [hwalks, List.mem_singleton] at hw
  subst hw
  exact ⟨isClosedWalk_detour, hwalks, hwalked⟩

/-- The way into a cycle is removed with it, so the closed walk there and back is
  missed; it shares no edge with the only cycle that is reported. -/
theorem missed_closed_walk :
    IsClosedWalk detour ["x", "a", "x"] ∧ findCycles detour = [["a", "b", "a"]] ∧
      ∀ reported ∈ findCycles detour, ∀ e ∈ links ["x", "a", "x"], e ∉ links reported := by
  have hfound : findCycles detour = [["a", "b", "a"]] := by decide +kernel
  refine ⟨isClosedWalk_detour, hfound, ?_⟩
  rw [hfound]
  decide

end DepGraph.Cycle
