/-
  DepGraph — cycles under other names.

  A search for cycles only asks which names are equal.  So it takes the same steps on
  edges that are renamed, if the names that edges touch stay apart: it prunes the same
  edges, walks the same nodes, and removes the same edges after each walk.

  * `pruneDeadEnds_rename`, `walkFrom_rename`, `dropFirstEdges_rename`: the steps.
  * `search?_rename`: whole searches.
  * `cycles_under_other_names`: the cycles of renamed edges, and of names whose beginning
    is cut.
-/
import Mathlib.Data.List.Find
import Mathlib.Data.Set.Function
import DepGraph.Proofs.Cycle.Verdict
import DepGraph.Proofs.Diagram.Stages

namespace DepGraph.Cycle

section
variable {f : String → String} {names : Set String} {edges : List Edge}

/-- All names that edges touch are of a set. -/
def Within (names : Set String) (edges : List Edge) : Prop :=
  ∀ e ∈ edges, e.1 ∈ names ∧ e.2 ∈ names

theorem Within.of_subset {part : List Edge} (h : Within names edges) (hsub : part ⊆ edges) :
    Within names part := fun e he => h e (hsub he)

theorem within_endpoints (edges : List Edge) :
    Within {n | n ∈ Containment.endpoints edges} edges := fun e he =>
  ⟨List.mem_flatMap.2 ⟨e, he, by simp⟩, List.mem_flatMap.2 ⟨e, he, by simp⟩⟩

theorem Within.next?_mem {node target : String} (h : Within names edges)
    (hn : next? edges node = some target) : target ∈ names :=
  (h _ (step_of_next? hn)).2

/-- A walk stays among the names. -/
theorem Within.walkFrom_subset (h : Within names edges) {fuel : Nat} {before nodes : List String}
    {node again : String} (hnode : node ∈ names) (hbefore : ∀ x ∈ before, x ∈ names)
    (hw : walkFrom edges fuel before node = (nodes, some again)) :
    (∀ x ∈ nodes, x ∈ names) ∧ again ∈ names := by
  induction fuel generalizing before node with
  | zero => simp [walkFrom] at hw
  | succ fuel ih =>
    unfold walkFrom at hw
    split at hw
    · obtain ⟨rfl, rfl⟩ : before = nodes ∧ node = again := by simpa using hw
      exact ⟨hbefore, hnode⟩
    · split at hw
      · simp at hw
      · next hn =>
        exact ih (h.next?_mem hn) (List.forall_mem_cons.2 ⟨hnode, hbefore⟩) hw

theorem Within.walk_subset (h : Within names edges) {nodes : List String} {node again : String}
    (hnode : node ∈ names) (hw : walk edges node = (nodes, some again)) :
    (∀ x ∈ nodes, x ∈ names) ∧ again ∈ names := by
  rcases hrun : walkFrom edges (edges.length + 2) [] node with ⟨met, found⟩
  rw [walk, hrun, Prod.mk.injEq] at hw
  obtain ⟨rfl, rfl⟩ := hw
  obtain ⟨hmet, hagain⟩ := h.walkFrom_subset hnode (List.forall_mem_nil _) hrun
  exact ⟨fun x hx => hmet x (List.mem_reverse.1 hx), hagain⟩

theorem isSome_next? (edges : List Edge) (node : String) :
    (next? edges node).isSome = hasSource edges node := by
  rw [next?, Option.isSome_map, hasSource, List.isSome_find?]

theorem dropFirstEdges_subset (nodes : List String) (edges : List Edge) :
    dropFirstEdges nodes edges ⊆ edges := by
  induction nodes generalizing edges with
  | nil => exact List.Subset.refl _
  | cons node rest ih => exact fun e he => List.eraseP_subset (ih _ he)

/-! ## What a search asks -/

section
variable (hf : Set.InjOn f names)
include hf

theorem beq_rename {a b : String} (ha : a ∈ names) (hb : b ∈ names) : (f a == f b) = (a == b) := by
  rw [Bool.eq_iff_iff, beq_iff_eq, beq_iff_eq, hf.eq_iff ha hb]

theorem mem_map_rename {nodes : List String} {a : String} (hn : ∀ x ∈ nodes, x ∈ names)
    (ha : a ∈ names) : f a ∈ nodes.map f ↔ a ∈ nodes := by
  rw [List.mem_map]
  exact ⟨fun ⟨x, hx, hxa⟩ => hf (hn x hx) ha hxa ▸ hx, fun h => ⟨a, h, rfl⟩⟩

theorem next?_rename (h : Within names edges) {node : String} (hnode : node ∈ names) :
    next? (edges.map (Prod.map f f)) (f node) = (next? edges node).map f := by
  have hfind : edges.find? ((·.1 == f node) ∘ Prod.map f f) = edges.find? (·.1 == node) :=
    List.find?_congr fun e he => beq_rename hf (h e he).1 hnode
  rw [next?, List.find?_map, hfind, next?, Option.map_map, Option.map_map]
  rfl

/-- A node has an edge iff it has a next node. -/
theorem hasSource_rename (h : Within names edges) {node : String} (hnode : node ∈ names) :
    hasSource (edges.map (Prod.map f f)) (f node) = hasSource edges node := by
  have hnext := congrArg Option.isSome (next?_rename hf h hnode)
  rwa [Option.isSome_map, isSome_next?, isSome_next?] at hnext

/-! ## The steps of a search -/

theorem prune_rename (h : Within names edges) :
    prune (edges.map (Prod.map f f)) = (prune edges).map (Prod.map f f) := by
  rw [prune, List.filter_map, prune]
  exact congrArg _ (List.filter_congr fun e he => hasSource_rename hf h (h e he).2)

theorem pruneDeadEnds_rename (h : Within names edges) :
    pruneDeadEnds (edges.map (Prod.map f f)) = (pruneDeadEnds edges).map (Prod.map f f) := by
  fun_induction pruneDeadEnds edges with
  | case1 edges hlt ih =>
    rw [pruneDeadEnds, prune_rename hf h, List.length_map, List.length_map, if_pos hlt]
    exact ih (h.of_subset (List.filter_subset_self _))
  | case2 edges hlt =>
    rw [pruneDeadEnds, prune_rename hf h, List.length_map, List.length_map, if_neg hlt]

theorem walkFrom_rename (h : Within names edges) (fuel : Nat) {before : List String}
    {node : String} (hnode : node ∈ names) (hbefore : ∀ x ∈ before, x ∈ names) :
    walkFrom (edges.map (Prod.map f f)) fuel (before.map f) (f node) =
      Prod.map (List.map f) (Option.map f) (walkFrom edges fuel before node) := by
  induction fuel generalizing before node with
  | zero => rfl
  | succ fuel ih =>
    simp only [walkFrom, mem_map_rename hf hbefore hnode, next?_rename hf h hnode]
    split
    · rfl
    · cases hn : next? edges node with
      | none => rfl
      | some target =>
        exact ih (h.next?_mem hn) (List.forall_mem_cons.2 ⟨hnode, hbefore⟩)

theorem walk_rename (h : Within names edges) {node : String} (hnode : node ∈ names) :
    walk (edges.map (Prod.map f f)) (f node) =
      Prod.map (List.map f) (Option.map f) (walk edges node) := by
  have hw := walkFrom_rename hf h (edges.length + 2) hnode (List.forall_mem_nil _)
  rw [List.map_nil] at hw
  simp only [walk, List.length_map, hw, Prod.map_fst, Prod.map_snd, Prod.map_apply,
    List.map_reverse]

theorem closeWalk_rename {nodes : List String} {again : String} (hn : ∀ x ∈ nodes, x ∈ names)
    (ha : again ∈ names) :
    closeWalk (nodes.map f) (f again) = (closeWalk nodes again).map f := by
  have hdrop : (nodes.map f).dropWhile (· != f again) =
      (nodes.dropWhile (· != again)).map f := by
    induction nodes with
    | nil => rfl
    | cons node rest ih =>
      obtain ⟨hnode, hrest⟩ := List.forall_mem_cons.1 hn
      rw [List.map_cons, List.dropWhile_cons, List.dropWhile_cons, bne, bne,
        beq_rename hf hnode ha]
      split
      · exact ih hrest
      · rfl
  rw [closeWalk, hdrop, closeWalk, List.map_append, List.map_singleton]

theorem eraseP_rename (h : Within names edges) {node : String} (hnode : node ∈ names) :
    (edges.map (Prod.map f f)).eraseP (·.1 == f node) =
      (edges.eraseP (·.1 == node)).map (Prod.map f f) := by
  induction edges with
  | nil => rfl
  | cons e rest ih =>
    obtain ⟨he, hrest⟩ := List.forall_mem_cons.1 h
    rw [List.map_cons, List.eraseP_cons, List.eraseP_cons, Prod.map_fst,
      beq_rename hf he.1 hnode, ih hrest]
    cases e.1 == node <;> rfl

theorem dropFirstEdges_rename (h : Within names edges) {nodes : List String}
    (hn : ∀ x ∈ nodes, x ∈ names) :
    dropFirstEdges (nodes.map f) (edges.map (Prod.map f f)) =
      (dropFirstEdges nodes edges).map (Prod.map f f) := by
  induction nodes generalizing edges with
  | nil => rfl
  | cons node rest ih =>
    obtain ⟨hnode, hrest⟩ := List.forall_mem_cons.1 hn
    rw [List.map_cons, dropFirstEdges, List.foldl_cons, eraseP_rename hf h hnode]
    exact ih (h.of_subset List.eraseP_subset) hrest

/-! ## Whole searches -/

theorem search?_rename (h : Within names edges) :
    search? (edges.map (Prod.map f f)) = (search? edges).map (List.map (List.map f)) := by
  fun_induction search? edges with
  | case1 edges hpruned =>
    exact search?_of_nil (by rw [pruneDeadEnds_rename hf h, hpruned, List.map_nil])
  | case2 edges e rest hpruned nodes hwalk =>
    -- after pruning every walk closes
    obtain ⟨nodes', again, hcloses⟩ := walk_pruned hpruned
    simp [hcloses] at hwalk
  | case3 edges e rest hpruned nodes again hwalk ih =>
    have hleft : Within names (e :: rest) := hpruned ▸ h.of_subset pruneDeadEnds_sublist.subset
    have he : e.1 ∈ names := (hleft e List.mem_cons_self).1
    obtain ⟨hnodes, hagain⟩ := hleft.walk_subset he hwalk
    have hmet : ∀ x ∈ e.1 :: nodes.drop 1, x ∈ names :=
      List.forall_mem_cons.2 ⟨he, fun x hx => hnodes x (List.mem_of_mem_drop hx)⟩
    -- the same edges are left by pruning, and the same walk is taken in them
    have hpruned' : pruneDeadEnds (edges.map (Prod.map f f)) =
        Prod.map f f e :: rest.map (Prod.map f f) := by
      rw [pruneDeadEnds_rename hf h, hpruned, List.map_cons]
    have hwalk' : walk (Prod.map f f e :: rest.map (Prod.map f f)) (f e.1) =
        (nodes.map f, some (f again)) := by
      rw [← List.map_cons, walk_rename hf hleft he, hwalk]
      rfl
    have hdrop := dropFirstEdges_rename hf hleft hmet
    rw [List.map_cons, List.map_cons, List.map_drop] at hdrop
    rw [search?_of_cons hpruned', Prod.map_fst, hwalk']
    simp only
    rw [hdrop, ih (hleft.of_subset (dropFirstEdges_subset _ _)), closeWalk_rename hf hnodes hagain,
      Option.map_map, Option.map_map]
    rfl

theorem findCycles_rename (h : Within names edges) :
    findCycles (edges.map (Prod.map f f)) = (findCycles edges).map (List.map f) := by
  have hsearch := search?_rename hf h
  rw [search?_eq, search?_eq, Option.map_some] at hsearch
  exact Option.some.inj hsearch

end

end

end DepGraph.Cycle

namespace DepGraph

open DepGraph.Cycle

/-- With names that are not truncated, a graph is made of the edges under cut names. -/
theorem Diagram.exists_build?_cut (s : Survey) {o : DiagramOptions} (hd : o.depths = ⟨0, 0⟩) :
    ∃ cut, build? s o = some cut ∧ cut.edges =
      (dependenciesOf s o).edges.map (Prod.map (cutStart o.start) (cutStart o.start)) := by
  have hinactive : o.depths.isActive = false := by rw [hd]; rfl
  obtain ⟨cut, hcut, -, hedges⟩ := exists_build?_of_separates (s := s) (.inr hinactive)
  refine ⟨cut, hcut, ?_⟩
  rw [hedges, edgesOf, hinactive, if_neg Bool.false_ne_true]
  rfl

/-- **Cycles are found alike under other names.**  If a renaming keeps apart the names
  that edges touch, the cycles of the renamed edges are the renamed cycles, in the same
  order.  So a graph with a beginning cut from its names has the cycles of the graph with
  whole names, name by name without the beginning, if the names it touches stay apart. -/
theorem cycles_under_other_names :
    (∀ (edges : List Edge) (f : String → String),
      Set.InjOn f {n | n ∈ Containment.endpoints edges} →
      findCycles (edges.map (Prod.map f f)) = (findCycles edges).map (List.map f)) ∧
    ∀ (s : Survey) (o : DiagramOptions), o.depths = ⟨0, 0⟩ →
      ∃ cut whole, Diagram.build? s o = some cut ∧
        Diagram.build? s { o with start := "" } = some whole ∧
        (Set.InjOn (cutStart o.start) {n | n ∈ Containment.endpoints whole.edges} →
          cut.cycles = whole.cycles.map (List.map (cutStart o.start))) := by
  refine ⟨fun edges f hf => findCycles_rename hf (within_endpoints edges), fun s o hd => ?_⟩
  have hwhole : o.whole = { o with start := "" } := by rw [DiagramOptions.whole, ← hd]
  obtain ⟨cut, hcut, hcutEdges⟩ := Diagram.exists_build?_cut s hd
  obtain ⟨whole, hw, -, hwholeEdges⟩ := Diagram.exists_build?_whole s o
  refine ⟨cut, whole, hcut, hwhole ▸ hw, fun hf => ?_⟩
  rw [Diagram.cycles, hcutEdges, ← hwholeEdges]
  exact findCycles_rename hf (within_endpoints _)

/-- Two files of one folder that depend on each other. -/
def mutualFiles : Survey :=
  { Survey.empty "/" with
    paths := OrderedMap.ofList [("lib/a", ["lib/b", "c"]), ("lib/b", ["lib/a"]), ("c", [])] }

/-- Without the name of their folder. -/
def withoutFolder : DiagramOptions := { start := "lib/" }

theorem cycles_under_other_names_mutualFiles :
    (∃ cut whole, Diagram.build? mutualFiles withoutFolder = some cut ∧
      Diagram.build? mutualFiles {} = some whole ∧
      whole.cycles = [["lib/a", "lib/b", "lib/a"]] ∧ cut.cycles = [["a", "b", "a"]]) ∧
    findCycles ([("a", "b"), ("b", "a")].map (Prod.map (Equiv.swap "a" "c") (Equiv.swap "a" "c"))) =
      [["c", "b", "c"]] := by
  constructor
  · obtain ⟨cut, whole, hcut, hwhole, hcycles⟩ :=
      cycles_under_other_names.2 mutualFiles withoutFolder rfl
    have hedges : whole.edges = [("lib/a", "lib/b"), ("lib/a", "c"), ("lib/b", "lib/a")] := by
      have hmade := Diagram.madeFrom_of_build? hwhole
      rw [hmade.edges, hmade.dependencies, hmade.separator]
      decide +kernel
    have hfound : whole.cycles = [["lib/a", "lib/b", "lib/a"]] := by
      rw [Diagram.cycles, hedges]
      decide +kernel
    have happart : ∀ a ∈ Containment.endpoints whole.edges, ∀ b ∈ Containment.endpoints whole.edges,
        cutStart "lib/" a = cutStart "lib/" b → a = b := by
      rw [hedges]
      decide +kernel
    have hcut' := hcycles fun a ha b hb => happart a ha b hb
    rw [hfound] at hcut'
    exact ⟨cut, whole, hcut, hwhole, hfound, hcut'.trans (by decide +kernel)⟩
  · have hfound : findCycles [("a", "b"), ("b", "a")] = [["a", "b", "a"]] := by decide +kernel
    rw [cycles_under_other_names.1 _ _ (Equiv.injective _).injOn, hfound]
    decide +kernel

end DepGraph
