/-
  DepGraph — splicing nodes out of a forest.

  In a forest a node that contains exactly one other node lies between the one edge
  to it and the one edge from it.  Splicing it out removes the edge from it, and lets
  the edge to it lead to its child; the other edges, and the order of all, stay.  What
  is left is a forest, in which the other nodes lie below each other as before.

  * `IsForest`: no node is the child of two edges, and none lies below itself.
  * `splice_eq`: the edges after one node is spliced out.
  * `transGen_splice_iff`: what lies below what.
  * `IsForest.splice`: a forest is left.
  * `isForest_edges_ofNames`: the tree of some names is a forest.
-/
import Mathlib.Logic.Relation
import DepGraph.Proofs.Containment.Ancestors
import DepGraph.Proofs.Containment.Splice
import DepGraph.Proofs.Cycle.Walk

namespace DepGraph.Containment

open Relation DepGraph.Cycle

/-- No node is the child of two edges, and none lies below itself. -/
structure IsForest (edges : List Edge) : Prop where
  nodup : (edges.map Prod.snd).Nodup
  acyclic : ¬ HasCycle edges

/-- The child of an edge instead of the node that the edge leads from. -/
def passOver (e : Edge) (name : String) : String := if name = e.1 then e.2 else name

section
variable {edges : List Edge} {e : Edge}

theorem passOver_self (e : Edge) : passOver e e.1 = e.2 := if_pos rfl

theorem passOver_of_ne {name : String} (h : name ≠ e.1) : passOver e name = name := if_neg h

/-! ## The edges after a splice -/

/-- A node that is the child of one edge at most is redirected wherever it is one. -/
theorem redirect_eq_map (h : (edges.map Prod.snd).Nodup) (e : Edge) :
    redirect e.1 e.2 edges = edges.map fun x => (x.1, passOver e x.2) := by
  induction edges with
  | nil => rfl
  | cons x rest ih =>
    obtain ⟨hnew, hrest⟩ := List.nodup_cons.1 h
    by_cases hx : x.2 = e.1
    · -- no later edge leads to the node
      have hlater : redirect e.1 e.2 rest = rest := redirect_eq_self (hx ▸ hnew)
      rw [redirect, if_pos hx, List.map_cons, ← ih hrest, hlater, hx, passOver_self]
    · rw [redirect, if_neg hx, List.map_cons, ← ih hrest, passOver_of_ne hx]

/-- An edge that is the only one from its node. -/
theorem eq_of_countP_eq_one (honly : edges.countP (·.1 == e.1) = 1) (he : e ∈ edges) {x : Edge}
    (hx : x ∈ edges) (hfrom : x.1 = e.1) : x = e := by
  rw [List.countP_eq_length_filter, List.length_eq_one_iff] at honly
  obtain ⟨only, honly⟩ := honly
  have hmem (y : Edge) (hy : y ∈ edges) (hfrom : y.1 = e.1) : y = only := by
    rw [← List.mem_singleton, ← honly]
    exact List.mem_filter.2 ⟨hy, by simpa using hfrom⟩
  exact (hmem x hx hfrom).trans (hmem e he rfl).symm

theorem erase_eq_filter (honly : edges.countP (·.1 == e.1) = 1) (he : e ∈ edges) :
    edges.erase e = edges.filter (·.1 != e.1) := by
  induction edges with
  | nil => rfl
  | cons x rest ih =>
    by_cases hx : x.1 = e.1
    · obtain rfl := eq_of_countP_eq_one honly he List.mem_cons_self hx
      -- no later edge is from the node
      have hnone : rest.countP (·.1 == x.1) = 0 := by simpa using honly
      rw [List.erase_cons_head, List.filter_cons_of_neg (by simp)]
      refine (List.filter_eq_self.2 fun y hy => ?_).symm
      simpa using List.countP_eq_zero.1 hnone y hy
    · have hne : x ≠ e := fun heq => hx (congrArg Prod.fst heq)
      rw [List.countP_cons_of_neg (by simpa using hx)] at honly
      rw [List.erase_cons_tail (by simpa using hne), List.filter_cons_of_pos (by simpa using hx),
        ih honly ((List.mem_cons.1 he).resolve_left hne.symm)]

section
variable (h : IsForest edges) (he : e ∈ edges)
include h he

/-- The child of a node is another node. -/
theorem IsForest.child_ne : e.2 ≠ e.1 := by
  intro heq
  have hself : Step edges e.1 e.2 := he
  exact h.acyclic ⟨e.1, .single (heq ▸ hself)⟩

variable (honly : edges.countP (·.1 == e.1) = 1)
include honly

/-- Splicing a node out removes the edge from it, and lets the edge to it lead to its
  child. -/
theorem splice_eq :
    splice e edges = (edges.filter (·.1 != e.1)).map fun x => (x.1, passOver e x.2) := by
  have hself : (e.1, passOver e e.2) = e := by rw [passOver_of_ne (h.child_ne he)]
  rw [splice, redirect_eq_map h.nodup, erase_eq_filter, List.filter_map]
  · rfl
  · rw [List.countP_map]
    exact honly
  · exact List.mem_map.2 ⟨e, he, hself⟩

theorem map_fst_splice :
    (splice e edges).map Prod.fst = (edges.map Prod.fst).filter (· != e.1) := by
  rw [splice_eq h he honly, List.map_map, List.filter_map]
  rfl

theorem mem_splice {x : Edge} :
    x ∈ splice e edges ↔ ∃ y ∈ edges, y.1 ≠ e.1 ∧ (y.1, passOver e y.2) = x := by
  rw [splice_eq h he honly, List.mem_map]
  simp only [List.mem_filter, bne_iff_ne, and_assoc]

/-! ## What lies below what -/

/-- An edge that is redirected stands for two edges. -/
theorem transGen_of_splice {u v : String} (huv : TransGen (Step (splice e edges)) u v) :
    TransGen (Step edges) u v := by
  refine TransGen.closed (fun a b hab => ?_) _ _ huv
  obtain ⟨y, hy, -, heq⟩ := (mem_splice h he honly).1 hab
  obtain ⟨rfl, rfl⟩ := Prod.mk.inj heq
  by_cases hto : y.2 = e.1
  · rw [hto, passOver_self]
    exact .tail (.single (hto ▸ hy)) he
  · rw [passOver_of_ne hto]
    exact .single hy

theorem step_splice {a b : String} (hab : Step edges a b) (ha : a ≠ e.1) :
    Step (splice e edges) a (passOver e b) := (mem_splice h he honly).2 ⟨_, hab, ha, rfl⟩

/-- A walk to another node passes over the node that is spliced out, whatever edges it
  may take, if they are left to it after the splice. -/
theorem reflTransGen_passOver {Before After : String → String → Prop}
    (hstep : ∀ a b, Before a b → Step edges a b)
    (hleft : ∀ a b, Before a b → a ≠ e.1 → After a (passOver e b))
    {u v : String} (huv : ReflTransGen Before u v) (hv : v ≠ e.1) :
    ReflTransGen After (passOver e u) v := by
  induction huv using ReflTransGen.head_induction_on with
  | refl => rw [passOver_of_ne hv]
  | @head a b hab _ ih =>
    by_cases ha : a = e.1
    · -- the node leads to its child only
      obtain rfl : (a, b) = e := eq_of_countP_eq_one honly he (hstep a b hab) ha
      rw [passOver_of_ne (h.child_ne he)] at ih
      rwa [ha, passOver_self]
    · rw [passOver_of_ne ha]
      exact .head (hleft a b hab ha) ih

/-- The other nodes lie below each other as before. -/
theorem transGen_splice_iff {u v : String} (hu : u ≠ e.1) (hv : v ≠ e.1) :
    TransGen (Step (splice e edges)) u v ↔ TransGen (Step edges) u v := by
  refine ⟨transGen_of_splice h he honly, fun huv => ?_⟩
  obtain ⟨w, huw, hwv⟩ := TransGen.head'_iff.1 huv
  exact .head' (step_splice h he honly huw hu)
    (reflTransGen_passOver h he honly (fun _ _ hab => hab)
      (fun _ _ hab ha => step_splice h he honly hab ha) hwv hv)

theorem IsForest.splice : IsForest (splice e edges) where
  nodup := by
    obtain ⟨lost, -, hperm⟩ := children_splice he
    exact (List.nodup_cons.1 (hperm.nodup h.nodup)).2
  acyclic := fun ⟨a, ha⟩ => h.acyclic ⟨a, transGen_of_splice h he honly ha⟩

end

end

/-! ## The tree of some names -/

/-- If children are longer than the nodes that contain them, none lies below itself. -/
theorem isForest_of_longer {edges : List Edge} (hnodup : (edges.map Prod.snd).Nodup)
    (hlonger : ∀ e ∈ edges, e.1.length < e.2.length) : IsForest edges where
  nodup := hnodup
  acyclic := by
    rintro ⟨name, hcycle⟩
    have hlt (below : String) (h : TransGen (Step edges) name below) :
        name.length < below.length := by
      induction h with
      | single hedge => exact hlonger _ hedge
      | tail _ hedge ih => exact Nat.lt_trans ih (hlonger _ hedge)
    exact Nat.lt_irrefl _ (hlt name hcycle)

theorem isForest_edges_ofNames (separator : String) (names : List String) :
    IsForest (ofNames separator names).edges :=
  isForest_of_longer (nodup_children_ofNames separator names)
    fun _ he => (mem_edges_ofNames.1 he).2.1.length_lt

end DepGraph.Containment
