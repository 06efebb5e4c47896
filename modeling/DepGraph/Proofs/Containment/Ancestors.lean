/-
  DepGraph — what stands above a name.

  The edges of a tree lead from a name to those directly below it, and so over
  several steps to all below it.  In the tree of some names, a name stands above
  another one iff it is a part of it, because the longest part of a name stands
  directly above it and its other parts are parts of this one.

  * `Above`: one name stands above another one.
  * `PartOf.trans`, `pairwise_partOf_chain`: the parts of a name are parts of one
    another.
  * `above_iff`: what stands above a name are its parts.
  * `pairwise_above_path`: the names on a path stand above one another.
  * `exists_below_iff`: the names with something below them.
-/
import Mathlib.Data.List.Induction
import Mathlib.Logic.Relation
import DepGraph.Proofs.Containment.Nesting

namespace DepGraph

open Relation

/-- A part of a part of a name is a part of the name. -/
theorem PartOf.trans {separator name part k : String} (hname : PartOf separator name part)
    (hpart : PartOf separator part k) : PartOf separator name k := by
  obtain ⟨above, deeper, hchain⟩ := List.append_of_mem (Containment.partOf_iff.1 hname).1
  have hmem := (Containment.mem_above_iff (Containment.chain_of_eq_append hchain)).2 hpart
  refine Containment.partOf_iff.2 ⟨by rw [hchain]; exact List.mem_append_left _ hmem, fun heq => ?_⟩
  have hlt := Nat.lt_trans hpart.length_lt hname.length_lt
  exact Nat.ne_of_lt hlt (congrArg _ heq)

namespace Containment

/-- A name stands above another one, directly or over several steps. -/
def Above (tree : Containment) : String → String → Prop :=
  TransGen fun parent name => (parent, name) ∈ tree.edges

section
variable {separator name k : String} {names : List String}

/-- On the chain of a name, the names before another one are its parts. -/
theorem pairwise_partOf_chain (separator name : String) :
    (chain separator name).Pairwise fun part k => PartOf separator k part := by
  -- by induction on how much of the chain is looked at
  suffices h : ∀ above deeper, chain separator name = above ++ deeper →
      above.Pairwise fun part k => PartOf separator k part from
    h _ [] (List.append_nil _).symm
  intro above
  induction above using List.reverseRecOn with
  | nil => exact fun _ _ => List.Pairwise.nil
  | append_singleton above k ih =>
    intro deeper hchain
    rw [List.append_assoc, List.singleton_append] at hchain
    refine List.pairwise_append.2 ⟨ih _ hchain, List.pairwise_singleton .., ?_⟩
    intro part hpart k' hk'
    rw [List.mem_singleton.1 hk']
    exact (mem_above_iff (chain_of_eq_append hchain)).1 hpart

/-- Directly above a name stands its longest part. -/
theorem mem_edges_ofNames : (k, name) ∈ (ofNames separator names).edges ↔
    name ∈ (ofNames separator names).names ∧ LongestPart separator name k := by
  rw [mem_edges, mem_names]
  constructor
  · rintro ⟨x, hx, rfl, hparent⟩
    exact ⟨⟨x, hx, rfl⟩, (getLast?_above_iff (chain_name hx)).1 hparent⟩
  · rintro ⟨⟨x, hx, rfl⟩, hlongest⟩
    exact ⟨x, hx, rfl, (getLast?_above_iff (chain_name hx)).2 hlongest⟩

/-- A part of a name of the tree is a name of the tree. -/
theorem mem_names_of_partOf (hname : name ∈ (ofNames separator names).names)
    (hpart : PartOf separator name k) : k ∈ (ofNames separator names).names := by
  obtain ⟨-, n, hn, rfl | hn'⟩ := mem_names_ofNames.1 hname
  · exact mem_names_ofNames.2 ⟨hpart.1, name, hn, .inr hpart⟩
  · exact mem_names_ofNames.2 ⟨hpart.1, n, hn, .inr (hn'.trans hpart)⟩

/-- **What stands above a name are its parts.** -/
theorem above_iff (hname : name ∈ (ofNames separator names).names) :
    (ofNames separator names).Above k name ↔ PartOf separator name k := by
  constructor
  · intro h
    induction h with
    | single hedge => exact (mem_edges_ofNames.1 hedge).2.1
    | tail _ hedge ih =>
      obtain ⟨hmem, hlongest⟩ := mem_edges_ofNames.1 hedge
      exact hlongest.1.trans (ih (mem_names_of_partOf hmem hlongest.1))
  · intro hpart
    obtain ⟨above, hchain⟩ := exists_chain_eq separator (mem_names_ofNames.1 hname).1
    have hmem := (mem_above_iff hchain).2 hpart
    clear hpart
    -- by induction on the names before the end of the chain, from its end
    induction above using List.reverseRecOn generalizing name with
    | nil => exact absurd hmem List.not_mem_nil
    | append_singleton above parent ih =>
      have hlongest : LongestPart separator name parent :=
        (getLast?_above_iff hchain).1 List.getLast?_concat
      have hedge : (parent, name) ∈ (ofNames separator names).edges :=
        mem_edges_ofNames.2 ⟨hname, hlongest⟩
      rw [List.append_assoc, List.singleton_append] at hchain
      rcases List.mem_append.1 hmem with hmem | hmem
      · exact (ih (mem_names_of_partOf hname hlongest.1) (chain_of_eq_append hchain) hmem).tail
          hedge
      · obtain rfl := List.mem_singleton.1 hmem
        exact .single hedge

/-- Each name on the path to an entry stands above those after it. -/
theorem pairwise_above_path {x : Place} (hx : x ∈ (ofNames separator names).places) :
    x.path.Pairwise (ofNames separator names).Above := by
  rw [← chain_name hx]
  refine (pairwise_partOf_chain separator x.name).imp_of_mem fun _ hk hpart => ?_
  obtain ⟨-, rfl | hk⟩ := mem_chain.1 hk
  · exact (above_iff (name_mem_names hx)).2 hpart
  · exact (above_iff (mem_names_of_partOf (name_mem_names hx) hk)).2 hpart

theorem nodup_path {x : Place} (hx : x ∈ (ofNames separator names).places) : x.path.Nodup := by
  rw [← chain_name hx]
  exact (pairwise_chain separator x.name).imp fun hlt heq => Nat.ne_of_lt hlt (congrArg _ heq)

/-- The names with something below them are the parts of those that are entered. -/
theorem exists_below_iff : (∃ below, (k, below) ∈ (ofNames separator names).edges) ↔
    ∃ n ∈ names, PartOf separator n k := by
  constructor
  · rintro ⟨below, hedge⟩
    obtain ⟨hbelow, hlongest⟩ := mem_edges_ofNames.1 hedge
    obtain ⟨-, n, hn, rfl | hn'⟩ := mem_names_ofNames.1 hbelow
    · exact ⟨below, hn, hlongest.1⟩
    · exact ⟨n, hn, hn'.trans hlongest.1⟩
  · rintro ⟨n, hn, hpart⟩
    exact exists_below_of_partOf hn hpart

end

end Containment

end DepGraph
