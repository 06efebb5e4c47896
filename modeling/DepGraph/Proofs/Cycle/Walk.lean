/-
  DepGraph — walks along first edges.

  A walk keeps the nodes it met.  Each of them leads to the node it stands at,
  so a node that comes again lies on a closed walk.  The nodes met are distinct
  and have edges of their own, so there are no more of them than edges: without
  dead ends a walk must come to a node again.

  * `Step`, `HasCycle`, `LeadsToCycle`: edges, closed walks, and the nodes from
    which one can be reached.
  * `walkFrom_sound`: a node that comes again lies on a closed walk.
  * `walkFrom_closes`: without dead ends some node comes again.
-/
import Mathlib.Data.List.Perm.Subperm
import Mathlib.Logic.Relation
import DepGraph.Graph.Cycle

namespace DepGraph.Cycle

open Relation

/-- There is an edge from a node to another one. -/
def Step (edges : List Edge) (a b : String) : Prop := (a, b) ∈ edges

/-- There is a closed walk of at least one edge. -/
def HasCycle (edges : List Edge) : Prop := ∃ a, TransGen (Step edges) a a

/-- A node from which some closed walk can be reached. -/
def LeadsToCycle (edges : List Edge) (a : String) : Prop :=
  ∃ c, ReflTransGen (Step edges) a c ∧ TransGen (Step edges) c c

/-- Every target has an edge to go on with. -/
def NoDeadEnds (edges : List Edge) : Prop := ∀ e ∈ edges, hasSource edges e.2 = true

section
variable {edges : List Edge} {node target : String}

theorem hasSource_iff : hasSource edges node = true ↔ ∃ target, Step edges node target := by
  simp only [hasSource, List.any_eq_true, beq_iff_eq, Step]
  constructor
  · rintro ⟨⟨a, b⟩, he, rfl⟩
    exact ⟨b, he⟩
  · rintro ⟨b, he⟩
    exact ⟨_, he, rfl⟩

theorem mem_sources (h : hasSource edges node = true) : node ∈ edges.map Prod.fst := by
  obtain ⟨b, hb⟩ := hasSource_iff.1 h
  exact List.mem_map.2 ⟨_, hb, rfl⟩

theorem step_of_next? (h : next? edges node = some target) : Step edges node target := by
  simp only [next?, Option.map_eq_some_iff] at h
  obtain ⟨⟨a, b⟩, he, rfl⟩ := h
  obtain rfl : a = node := by simpa using List.find?_some he
  exact List.mem_of_find?_eq_some he

/-- The next edge of a node that has one is found. -/
theorem next?_isSome (h : hasSource edges node = true) :
    ∃ target, next? edges node = some target := by
  obtain ⟨b, hb⟩ := hasSource_iff.1 h
  cases hf : edges.find? (·.1 == node) with
  | none => exact absurd (List.find?_eq_none.1 hf _ hb) (by simp)
  | some e => exact ⟨e.2, by simp [next?, hf]⟩

/-! ## What a walk says -/

/-- Every node met leads to the node at which the walk stands. -/
def Met (edges : List Edge) (before : List String) (node : String) : Prop :=
  ∀ x ∈ before, TransGen (Step edges) x node

theorem Met.step {before : List String} (h : Met edges before node)
    (hs : Step edges node target) : Met edges (node :: before) target := by
  intro x hx
  rcases List.mem_cons.1 hx with rfl | hx
  · exact .single hs
  · exact (h x hx).tail hs

/-- A node that comes again lies on a closed walk, and is reached by the walk. -/
theorem walkFrom_sound {fuel : Nat} {before nodes : List String} {again : String}
    (hm : Met edges before node) (h : walkFrom edges fuel before node = (nodes, some again)) :
    ReflTransGen (Step edges) node again ∧ TransGen (Step edges) again again := by
  induction fuel generalizing before node with
  | zero => simp [walkFrom] at h
  | succ fuel ih =>
    unfold walkFrom at h
    split at h
    · next hb =>
      obtain ⟨-, rfl⟩ : before = nodes ∧ node = again := by simpa using h
      exact ⟨.refl, hm _ hb⟩
    · split at h
      · simp at h
      · next hnext =>
        have hs := step_of_next? hnext
        obtain ⟨hreach, hcycle⟩ := ih (hm.step hs) h
        exact ⟨.head hs hreach, hcycle⟩

/-- Without dead ends a walk finds every next edge, and comes to a node again
  before its fuel is used up. -/
theorem walkFrom_closes (hd : NoDeadEnds edges) (fuel : Nat) (before : List String)
    (hs : hasSource edges node = true) (hnodup : before.Nodup)
    (hb : ∀ x ∈ before, hasSource edges x = true) (hfuel : edges.length < fuel + before.length) :
    ∃ nodes again, walkFrom edges fuel before node = (nodes, some again) := by
  induction fuel generalizing before node with
  | zero =>
    have hsub : before ⊆ edges.map Prod.fst := fun x hx => mem_sources (hb x hx)
    have := (hnodup.subperm hsub).length_le
    rw [List.length_map] at this
    omega
  | succ fuel ih =>
    unfold walkFrom
    split
    · exact ⟨_, _, rfl⟩
    · next hnew =>
      obtain ⟨target, hnext⟩ := next?_isSome hs
      rw [hnext]
      refine ih _ (hd _ (step_of_next? hnext)) (List.nodup_cons.2 ⟨hnew, hnodup⟩) ?_ ?_
      · intro x hx
        rcases List.mem_cons.1 hx with rfl | hx
        · exact hs
        · exact hb x hx
      · rw [List.length_cons]
        omega

/-- The walk from a node with an edge, without dead ends: a node comes again,
  and it lies on a closed walk. -/
theorem walk_closes (hd : NoDeadEnds edges) (hs : hasSource edges node = true) :
    ∃ nodes again, walk edges node = (nodes, some again) ∧
      ReflTransGen (Step edges) node again ∧ TransGen (Step edges) again again := by
  obtain ⟨nodes, again, h⟩ :=
    walkFrom_closes hd (edges.length + 2) [] hs List.nodup_nil (by simp) (by simp)
  have hm : Met edges [] node := fun _ hx => absurd hx List.not_mem_nil
  exact ⟨nodes.reverse, again, by simp [walk, h], walkFrom_sound hm h⟩

theorem leadsToCycle_of_noDeadEnds (hd : NoDeadEnds edges) (hs : hasSource edges node = true) :
    LeadsToCycle edges node := by
  obtain ⟨-, again, -, h⟩ := walk_closes hd hs
  exact ⟨again, h⟩

end

end DepGraph.Cycle
