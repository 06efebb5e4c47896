/-
  DepGraph — what splicing keeps.

  Splicing a node out takes the node from the parents once, and one name from the
  children: the node itself, or its only child if nothing contains the node.  So if
  no name is the child of two nodes, this stays so, and a child that contains
  something itself keeps doing so until it is spliced out, when it is no child any
  more.

  * `splice`: the edges after one node is spliced out.
  * `parents_splice`, `children_splice`: what this does to both ends of the edges.
  * `collapse_induction`: what one splice keeps is kept by all.
  * `reflTransGen_collapse`, `splice?_collapse`: collapsing is splicing until no node is
    left to be spliced out.
  * `Anchored`: no child twice, and every child is touched by a dependency or
    contains something.
  * `anchored_collapse`: this is kept.
  * `anchored_edges_ofNames`: it holds of the tree of some names.
-/
import Mathlib.Logic.Relation
import DepGraph.Containment.Collapse
import DepGraph.Proofs.Containment.Nesting

namespace DepGraph.Containment

open Relation

/-- The edges after the node that an edge leads from is spliced out. -/
def splice (e : Edge) (edges : List Edge) : List Edge := (redirect e.1 e.2 edges).erase e

section
variable {edges : List Edge} {e : Edge} {node target : String}

/-! ## Both ends of the edges -/

theorem map_fst_redirect (node target : String) (edges : List Edge) :
    (redirect node target edges).map Prod.fst = edges.map Prod.fst := by
  induction edges with
  | nil => rfl
  | cons head rest ih =>
    rw [redirect]
    split
    · rfl
    · rw [List.map_cons, List.map_cons, ih]

theorem redirect_self (node : String) (edges : List Edge) : redirect node node edges = edges := by
  induction edges with
  | nil => rfl
  | cons head rest ih =>
    rw [redirect]
    split
    · next h => rw [← h]
    · rw [ih]

theorem redirect_eq_self (h : node ∉ edges.map Prod.snd) : redirect node target edges = edges := by
  induction edges with
  | nil => rfl
  | cons head rest ih =>
    rw [List.map_cons, List.mem_cons, not_or] at h
    rw [redirect, if_neg (Ne.symm h.1), ih h.2]

/-- The node is a child once less, and the target once more. -/
theorem map_snd_redirect (h : node ∈ edges.map Prod.snd) :
    ((redirect node target edges).map Prod.snd).Perm
      (target :: (edges.map Prod.snd).erase node) := by
  induction edges with
  | nil => exact absurd h List.not_mem_nil
  | cons head rest ih =>
    rw [redirect]
    split
    · next heq => rw [List.map_cons, List.map_cons, heq, List.erase_cons_head]
    · next hne =>
      have hrest : node ∈ rest.map Prod.snd := (List.mem_cons.1 h).resolve_left (Ne.symm hne)
      rw [List.map_cons, List.map_cons, List.erase_cons_tail (by simpa using hne)]
      exact ((ih hrest).cons _).trans (.swap ..)

theorem mem_redirect (he : e ∈ edges) (hne : e.2 ≠ node) : e ∈ redirect node target edges := by
  induction edges with
  | nil => exact absurd he List.not_mem_nil
  | cons head rest ih =>
    rw [redirect]
    rcases List.mem_cons.1 he with rfl | he
    · rw [if_neg hne]
      exact List.mem_cons_self
    · split
      · exact List.mem_cons_of_mem _ he
      · exact List.mem_cons_of_mem _ (ih he)

/-- The edge itself is not redirected before it is removed. -/
theorem mem_redirect_self (he : e ∈ edges) : e ∈ redirect e.1 e.2 edges := by
  by_cases h : e.2 = e.1
  · rw [h, redirect_self]
    exact he
  · exact mem_redirect he h

/-- The node is a parent once less. -/
theorem parents_splice (he : e ∈ edges) :
    (edges.map Prod.fst).Perm (e.1 :: (splice e edges).map Prod.fst) := by
  rw [← map_fst_redirect e.1 e.2]
  exact (List.perm_cons_erase (mem_redirect_self he)).map Prod.fst

/-- The node is a child once less; if nothing contains it, its child is. -/
theorem children_splice (he : e ∈ edges) :
    ∃ lost, (lost = e.1 ∨ e.1 ∉ edges.map Prod.snd) ∧
      (edges.map Prod.snd).Perm (lost :: (splice e edges).map Prod.snd) := by
  have hremoved : ((redirect e.1 e.2 edges).map Prod.snd).Perm
      (e.2 :: (splice e edges).map Prod.snd) :=
    (List.perm_cons_erase (mem_redirect_self he)).map Prod.snd
  by_cases hchild : e.1 ∈ edges.map Prod.snd
  · have hkept : ((edges.map Prod.snd).erase e.1).Perm ((splice e edges).map Prod.snd) :=
      ((map_snd_redirect hchild).symm.trans hremoved).cons_inv
    exact ⟨e.1, .inl rfl, (List.perm_cons_erase hchild).trans (hkept.cons e.1)⟩
  · rw [redirect_eq_self hchild] at hremoved
    exact ⟨e.2, .inr hchild, hremoved⟩

end

/-! ## All splices -/

section
variable {root : String} {P : List Edge → Prop}

theorem collapseWith_induction {connected : List String}
    (step : ∀ edges e, P edges → e ∈ edges → isTrivial root connected edges e = true →
      P (splice e edges)) (fuel : Nat) {edges : List Edge} (h : P edges) :
    P (collapseWith root connected fuel edges) := by
  induction fuel generalizing edges with
  | zero => exact h
  | succ fuel ih =>
    rw [collapseWith]
    split
    · exact h
    · next edges' hsplice =>
      obtain ⟨e, hfind, rfl⟩ := Option.map_eq_some_iff.1 hsplice
      exact ih (step edges e h (List.mem_of_find?_eq_some hfind) (List.find?_some hfind))

/-- What splicing out a node keeps is kept when edges are collapsed. -/
theorem collapse_induction {contains dependencies : List Edge} (h : P contains)
    (step : ∀ edges e, P edges → e ∈ edges →
      isTrivial root (endpoints dependencies) edges e = true → P (splice e edges)) :
    P (collapse contains dependencies root) := collapseWith_induction step _ h

end

section
variable {root : String} {connected : List String}

theorem reflTransGen_collapseWith (fuel : Nat) (edges : List Edge) :
    ReflTransGen (fun es es' => splice? root connected es = some es') edges
      (collapseWith root connected fuel edges) := by
  induction fuel generalizing edges with
  | zero => exact .refl
  | succ fuel ih =>
    rw [collapseWith]
    split
    · exact .refl
    · next edges' h => exact .head h (ih edges')

theorem length_lt_of_splice? {edges edges' : List Edge}
    (h : splice? root connected edges = some edges') : edges'.length < edges.length := by
  obtain ⟨e, hfind, rfl⟩ := Option.map_eq_some_iff.1 h
  have hlength := (parents_splice (List.mem_of_find?_eq_some hfind)).length_eq
  rw [List.length_cons, List.length_map, List.length_map] at hlength
  exact Nat.lt_of_succ_le (Nat.le_of_eq hlength.symm)

theorem splice?_collapseWith {fuel : Nat} {edges : List Edge} (hfuel : edges.length ≤ fuel) :
    splice? root connected (collapseWith root connected fuel edges) = none := by
  induction fuel generalizing edges with
  | zero =>
    obtain rfl := List.length_eq_zero_iff.1 (Nat.le_zero.1 hfuel)
    rfl
  | succ fuel ih =>
    rw [collapseWith]
    split
    · next h => exact h
    · next edges' h =>
      have hlt := length_lt_of_splice? h
      exact ih (by omega)

/-- Collapsed edges are what splices leave. -/
theorem reflTransGen_collapse (contains dependencies : List Edge) (root : String) :
    ReflTransGen (fun es es' => splice? root (endpoints dependencies) es = some es') contains
      (collapse contains dependencies root) := reflTransGen_collapseWith _ _

/-- In collapsed edges no node is left to be spliced out. -/
theorem splice?_collapse (contains dependencies : List Edge) (root : String) :
    splice? root (endpoints dependencies) (collapse contains dependencies root) = none :=
  splice?_collapseWith (Nat.le_refl _)

end

/-! ## Children that are touched or contain something -/

/-- No name is the child of two nodes, and every child is touched by a dependency or
  contains something. -/
structure Anchored (connected : List String) (edges : List Edge) : Prop where
  nodup : (edges.map Prod.snd).Nodup
  child : ∀ name ∈ edges.map Prod.snd, name ∈ connected ∨ name ∈ edges.map Prod.fst

theorem Anchored.splice {connected : List String} {edges : List Edge} {e : Edge}
    (h : Anchored connected edges) (he : e ∈ edges) :
    Anchored connected (splice e edges) := by
  obtain ⟨lost, hlost, hchildren⟩ := children_splice he
  obtain ⟨hnot, hnodup⟩ := List.nodup_cons.1 (hchildren.nodup h.nodup)
  refine ⟨hnodup, fun name hname => ?_⟩
  have hold : name ∈ edges.map Prod.snd := hchildren.mem_iff.2 (List.mem_cons_of_mem _ hname)
  -- the node that is spliced out is no child any more
  have hne : name ≠ e.1 := by
    rintro rfl
    rcases hlost with rfl | hlost
    · exact hnot hname
    · exact hlost hold
  refine (h.child name hold).imp_right fun hparent => ?_
  exact (List.mem_cons.1 ((parents_splice he).mem_iff.1 hparent)).resolve_left hne

theorem anchored_collapse {connected : List String} {contains : List Edge}
    (h : Anchored connected contains) (dependencies : List Edge) (root : String) :
    Anchored connected (collapse contains dependencies root) :=
  collapse_induction h fun _ _ hedges he _ => hedges.splice he

/-- In the tree of some names every entry below another one is a name that is
  entered or has something below it. -/
theorem anchored_edges_ofNames (separator : String) (names : List String) :
    Anchored names (ofNames separator names).edges := by
  have hchildren := map_snd_edges_sublist (ofNames separator names)
  rw [map_name_places] at hchildren
  refine ⟨nodup_children_ofNames separator names, fun name hname => ?_⟩
  obtain ⟨-, n, hn, rfl | hpart⟩ := mem_names_ofNames.1 (hchildren.subset hname)
  · exact .inl hn
  · obtain ⟨below, hedge⟩ := exists_below_of_partOf hn hpart
    exact .inr (List.mem_map_of_mem hedge)

end DepGraph.Containment
