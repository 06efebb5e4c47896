/-
  DepGraph — what containment trees mean.

  A name is entered under its parts that end before a separator.  The parts of
  such a part are those before it, so wherever a name comes from, it stands at one
  place: under its own parts.  Therefore only the names that are entered matter,
  not their order, nor how often and in how many calls they are entered.

  * `PartOf`, `LongestPart`: what a name lies within.
  * `Containment.chain_of_eq_append`: the chain of a name on a chain.
  * `Containment.holds_ofNames`: the places of the tree of some names.
  * `Containment.nodup_names_ofNames`, `Containment.mem_names_ofNames`: its names.
  * `Containment.Nests`: the names, parents, kinds and edges of a tree.
  * `Containment.nests_ofNames`: the tree of some names, however it is grown.
-/
import DepGraph.Proofs.Containment.Rearranged
import DepGraph.Proofs.Text.Segments

namespace DepGraph

open DepGraph.Text

/-- A part of a name is not empty and ends before an occurrence of the separator. -/
def PartOf (separator name part : String) : Prop :=
  part ≠ "" ∧ EndsBefore separator.toList name.toList part.toList

/-- No part of the name is longer. -/
def LongestPart (separator name part : String) : Prop :=
  PartOf separator name part ∧ ∀ other, PartOf separator name other → other.length ≤ part.length

theorem PartOf.length_lt {separator name part : String} (h : PartOf separator name part) :
    part.length < name.length := by
  simpa only [String.length_toList] using h.2.length_lt

namespace Containment

section
variable {separator name k part : String} {above : List String} {inner : Bool}

/-! ## Chains of names -/

theorem mem_chain :
    k ∈ chain separator name ↔ k ≠ "" ∧ (k = name ∨ PartOf separator name k) := by
  rw [chain, List.mem_filter, mem_leadingParts, bne_iff_ne, PartOf]
  tauto

theorem partOf_iff : PartOf separator name k ↔ k ∈ chain separator name ∧ k ≠ name := by
  rw [mem_chain]
  constructor
  · exact fun h => ⟨⟨h.1, .inr h⟩, fun heq => Nat.ne_of_lt h.length_lt (congrArg _ heq)⟩
  · rintro ⟨⟨-, heq | h⟩, hne⟩
    · exact absurd heq hne
    · exact h

/-- The chain of a name on a chain ends with this name. -/
theorem chain_of_eq_append {deeper : List String}
    (h : chain separator name = above ++ k :: deeper) : chain separator k = above ++ [k] := by
  obtain ⟨l, l', hl, rfl, hl'⟩ := List.filter_eq_append_iff.1 h
  obtain ⟨empties, rest, rfl, hempties, hk, -⟩ := List.filter_eq_cons_iff.1 hl'
  -- empty leading parts directly before the name are left out as well
  have hsplit : leadingParts separator name = (l ++ empties) ++ k :: rest := by
    rw [hl, List.append_assoc]
  have hk' : leadingParts separator k = (l ++ empties) ++ [k] := leadingParts_of_eq_append hsplit
  have hout : empties.filter (· != "") = [] := List.filter_eq_nil_iff.2 hempties
  have hin : [k].filter (· != "") = [k] := List.filter_eq_self.2 (by simpa using hk)
  rw [chain, hk', List.filter_append, List.filter_append, hout, hin, List.append_nil]

theorem exists_chain_eq (separator : String) (h : k ≠ "") : ∃ above, chain separator k = above ++ [k] := by
  obtain ⟨above, deeper, heq⟩ := List.append_of_mem (mem_chain.2 ⟨h, .inl (Eq.refl k)⟩)
  exact ⟨above, chain_of_eq_append heq⟩

theorem pairwise_chain (separator name : String) :
    (chain separator name).Pairwise fun p q => p.length < q.length :=
  (pairwise_leadingParts separator name).filter _

/-- The names before the end of its chain are the parts of a name. -/
theorem mem_above_iff (h : chain separator k = above ++ [k]) :
    part ∈ above ↔ PartOf separator k part := by
  have hp := pairwise_chain separator k
  rw [h, List.pairwise_append] at hp
  rw [partOf_iff, h, List.mem_append, List.mem_singleton]
  constructor
  · intro hmem
    have hlt := hp.2.2 part hmem k (List.mem_singleton_self k)
    exact ⟨.inl hmem, fun heq => Nat.ne_of_lt hlt (congrArg _ heq)⟩
  · rintro ⟨hmem | heq, hne⟩
    · exact hmem
    · exact absurd heq hne

/-- The last of ever longer names is the longest. -/
theorem getLast?_eq_some_iff_longest {l : List String}
    (h : l.Pairwise fun p q => p.length < q.length) :
    l.getLast? = some part ↔ part ∈ l ∧ ∀ other ∈ l, other.length ≤ part.length := by
  constructor
  · intro hlast
    obtain ⟨l', rfl⟩ := List.getLast?_eq_some_iff.1 hlast
    refine ⟨by simp, fun other hother => ?_⟩
    rcases List.mem_append.1 hother with hother | hother
    · exact Nat.le_of_lt ((List.pairwise_append.1 h).2.2 other hother part (by simp))
    · exact Nat.le_of_eq (congrArg _ (List.mem_singleton.1 hother))
  · rintro ⟨hmem, hmax⟩
    rcases List.eq_nil_or_concat' l with rfl | ⟨l', last, rfl⟩
    · exact absurd hmem List.not_mem_nil
    · rcases List.mem_append.1 hmem with hmem | hmem
      · have hlt := (List.pairwise_append.1 h).2.2 part hmem last (by simp)
        have hle := hmax last (by simp)
        omega
      · rw [List.mem_singleton.1 hmem, List.getLast?_concat]

theorem getLast?_above_iff (h : chain separator k = above ++ [k]) :
    above.getLast? = some part ↔ LongestPart separator k part := by
  have hp := pairwise_chain separator k
  rw [h, List.pairwise_append] at hp
  rw [getLast?_eq_some_iff_longest hp.1, LongestPart, mem_above_iff h]
  simp only [mem_above_iff h]

/-- A name stands on a chain under its own parts. -/
theorem onChain_chain : OnChain (chain separator name) above k inner ↔
    chain separator k = above ++ [k] ∧ k ∈ chain separator name ∧ (inner = true → k ≠ name) := by
  constructor
  · rintro ⟨deeper, heq, hdeeper⟩
    have hk := chain_of_eq_append heq
    refine ⟨hk, by rw [heq]; simp, fun hi hname => ?_⟩
    -- the name itself ends its chain
    rw [← hname, hk, List.append_cancel_left_eq, List.cons.injEq] at heq
    exact hdeeper hi heq.2.symm
  · rintro ⟨hk, hmem, hne⟩
    obtain ⟨above', deeper, heq⟩ := List.append_of_mem hmem
    obtain rfl : above' = above :=
      List.append_cancel_right ((chain_of_eq_append heq).symm.trans hk)
    refine ⟨deeper, heq, fun hi hnil => hne hi ?_⟩
    -- nothing follows `k`, so the longest name of the chain is `k`
    subst hnil
    have hname : name ≠ "" := by
      rintro rfl
      rcases (mem_chain.1 hmem).2 with h | h
      · exact (mem_chain.1 hmem).1 h
      · exact absurd h.length_lt (Nat.not_lt_zero _)
    obtain ⟨above'', hself⟩ := exists_chain_eq separator hname
    have hlast := congrArg List.getLast? (heq.symm.trans hself)
    simpa using hlast

/-! ## The tree of some names -/

/-- **The places of a tree**: a name stands under its own parts if it is entered,
  or a part of a name that is entered, and in the second case it has a level. -/
theorem holds_ofNames {names : List String} :
    (ofNames separator names).Holds above k inner ↔
      chain separator k = above ++ [k] ∧
        ∃ n ∈ names, k ∈ chain separator n ∧ (inner = true → k ≠ n) := by
  rw [ofNames, holds_insertAll, or_iff_right not_holds_nil]
  simp only [onChain_chain]
  constructor
  · rintro ⟨n, hn, hk, h⟩
    exact ⟨hk, n, hn, h⟩
  · rintro ⟨hk, n, hn, h⟩
    exact ⟨n, hn, hk, h⟩

theorem distinct_ofNames (separator : String) (names : List String) :
    (ofNames separator names).Distinct := by
  rw [ofNames]
  exact distinct_nil.insertAll (chain separator) names

theorem chain_name {names : List String} {x : Place} (hx : x ∈ (ofNames separator names).places) :
    chain separator x.name = x.path :=
  (holds_ofNames.1 (holds_of_mem hx)).1

end

/-- A tree nests names by their parts. -/
structure Nests (separator : String) (names : List String) (tree : Containment) : Prop where
  /-- No name stands at two places. -/
  once : tree.names.Nodup
  /-- The names are those entered and their parts, without the empty name. -/
  mem_names : ∀ k, k ∈ tree.names ↔ k ≠ "" ∧ ∃ n ∈ names, k = n ∨ PartOf separator n k
  /-- Directly above a name stands its longest part. -/
  parent : ∀ x ∈ tree.places, ∀ p, x.parent? = some p ↔ LongestPart separator x.name p
  /-- A name without parts stands on the first level. -/
  top : ∀ x ∈ tree.places, x.parent? = none ↔ ∀ p, ¬ PartOf separator x.name p
  /-- A name has a level iff it is a part of a name that is entered. -/
  inner : ∀ x ∈ tree.places, x.inner = true ↔ ∃ n ∈ names, PartOf separator n x.name
  /-- Each name is listed below the one directly above it, once. -/
  edges : tree.edges.Nodup ∧ ∀ p k, (p, k) ∈ tree.edges ↔
    ∃ x ∈ tree.places, x.name = k ∧ x.parent? = some p

theorem mem_names_ofNames {separator k : String} {names : List String} :
    k ∈ (ofNames separator names).names ↔
      k ≠ "" ∧ ∃ n ∈ names, k = n ∨ PartOf separator n k := by
  rw [mem_names]
  constructor
  · rintro ⟨x, hx, rfl⟩
    obtain ⟨-, n, hn, hmem, -⟩ := holds_ofNames.1 (holds_of_mem hx)
    obtain ⟨hne, hor⟩ := mem_chain.1 hmem
    exact ⟨hne, n, hn, hor⟩
  · rintro ⟨hne, n, hn, hor⟩
    obtain ⟨above, hchain⟩ := exists_chain_eq separator hne
    obtain ⟨x, hx, -, hname, -⟩ : (ofNames separator names).Holds above k false :=
      holds_ofNames.2 ⟨hchain, n, hn, mem_chain.2 ⟨hne, hor⟩, fun h => absurd h (by decide)⟩
    exact ⟨x, hx, hname⟩

/-- The path to an entry is the chain of its name, so a name stands at one place. -/
theorem nodup_names_ofNames (separator : String) (names : List String) :
    (ofNames separator names).names.Nodup := by
  have hpaths := nodup_paths (distinct_ofNames separator names)
  have heq : (ofNames separator names).places.map Place.path =
      (ofNames separator names).names.map (chain separator) := by
    rw [← map_name_places, List.map_map]
    exact List.map_congr_left fun x hx => (chain_name hx).symm
  rw [heq] at hpaths
  exact List.Nodup.of_map _ hpaths

theorem nodup_map_name_places (separator : String) (names : List String) :
    ((ofNames separator names).places.map (·.name)).Nodup := by
  rw [map_name_places]
  exact nodup_names_ofNames separator names

/-- A name is listed below one other at most. -/
theorem nodup_children_ofNames (separator : String) (names : List String) :
    ((ofNames separator names).edges.map Prod.snd).Nodup :=
  (map_snd_edges_sublist _).nodup (nodup_map_name_places separator names)

theorem edges_nodup_ofNames (separator : String) (names : List String) :
    (ofNames separator names).edges.Nodup := (nodup_children_ofNames separator names).of_map

theorem inner_iff {separator : String} {names : List String} {x : Place}
    (hx : x ∈ (ofNames separator names).places) :
    x.inner = true ↔ ∃ n ∈ names, PartOf separator n x.name := by
  simp only [partOf_iff]
  constructor
  · intro hi
    obtain ⟨-, n, hn, hmem, hne⟩ := holds_ofNames.1 (holds_of_mem hx)
    exact ⟨n, hn, hmem, hne hi⟩
  · rintro ⟨n, hn, hmem, hne⟩
    obtain ⟨y, hy, -, hname, hi⟩ : (ofNames separator names).Holds x.above x.name true :=
      holds_ofNames.2 ⟨chain_name hx, n, hn, hmem, fun _ => hne⟩
    obtain rfl : y = x :=
      List.inj_on_of_nodup_map (nodup_map_name_places separator names) hy hx hname
    exact hi rfl

/-- Something stands directly below a part of a name that is entered. -/
theorem exists_below_of_partOf {separator n k : String} {names : List String} (hn : n ∈ names)
    (hk : PartOf separator n k) : ∃ name, (k, name) ∈ (ofNames separator names).edges := by
  obtain ⟨hmem, hne⟩ := partOf_iff.1 hk
  obtain ⟨above, hchain⟩ := exists_chain_eq separator hk.1
  -- the part is followed by another name on the chain
  obtain ⟨deeper, hn', hdeeper⟩ := onChain_chain.2 ⟨hchain, hmem, fun _ : true = true => hne⟩
  obtain ⟨name, rest, rfl⟩ := List.exists_cons_of_ne_nil (hdeeper rfl)
  have hn'' : chain separator n = (above ++ [k]) ++ name :: rest := by
    rw [hn', List.append_assoc, List.singleton_append]
  obtain ⟨x, hx, habove, hname, -⟩ : (ofNames separator names).Holds (above ++ [k]) name false :=
    holds_ofNames.2 ⟨chain_of_eq_append hn'', n, hn, by simp [hn''], fun h => Bool.noConfusion h⟩
  refine ⟨name, mem_edges.2 ⟨x, hx, hname, ?_⟩⟩
  rw [Place.parent?, habove, List.getLast?_concat]

/-- **The tree of names nests them by their parts**, and it is the same, but for
  the order of siblings, however often, in whatever order and in how many calls the
  names are entered. -/
theorem nests_ofNames (separator : String) (names : List String) :
    Nests separator names (ofNames separator names) ∧
      ∀ calls : List (List String), (∀ n, n ∈ calls.flatten ↔ n ∈ names) →
        Rearranged (calls.foldl (insertAll (chain separator)) .nil) (ofNames separator names) := by
  constructor
  · refine ⟨nodup_names_ofNames separator names, fun k => mem_names_ofNames,
      fun x hx p => getLast?_above_iff (chain_name hx), fun x hx => ?_,
      fun x hx => inner_iff hx, edges_nodup_ofNames separator names, fun p k => mem_edges⟩
    rw [Place.parent?, List.getLast?_eq_none_iff, List.eq_nil_iff_forall_not_mem]
    simp only [mem_above_iff (chain_name hx)]
  · intro calls hcalls
    have hgrown : calls.foldl (insertAll (chain separator)) .nil =
        ofNames separator calls.flatten := by
      simp only [ofNames, insertAll, List.foldl_flatten]
      rfl
    rw [hgrown]
    refine rearranged_of_holds_iff (distinct_ofNames _ _) (distinct_ofNames _ _) ?_
    intro above k inner
    simp only [holds_ofNames, hcalls]

/-- A folder, a file below it and one deeper, entered in two calls and in one. -/
theorem nests_ofNames_twoCalls :
    (∀ n, n ∈ [["a/b/c"], ["a/b", "a/b/c"]].flatten ↔ n ∈ ["a/b", "a/b/c"]) ∧
      Nests "/" ["a/b", "a/b/c"] (ofNames "/" ["a/b", "a/b/c"]) ∧
      (ofNames "/" ["a/b", "a/b/c"]).places =
        [⟨[], "a", true⟩, ⟨["a"], "a/b", true⟩, ⟨["a", "a/b"], "a/b/c", false⟩] ∧
      Rearranged ([["a/b/c"], ["a/b", "a/b/c"]].foldl (insertAll (chain "/")) .nil)
        (ofNames "/" ["a/b", "a/b/c"]) := by
  have hcalls : ∀ n, n ∈ [["a/b/c"], ["a/b", "a/b/c"]].flatten ↔ n ∈ ["a/b", "a/b/c"] := by
    intro n
    simp only [List.flatten_cons, List.flatten_nil, List.append_nil, List.cons_append,
      List.nil_append, List.mem_cons, List.not_mem_nil, or_false]
    tauto
  obtain ⟨hnests, hsame⟩ := nests_ofNames "/" ["a/b", "a/b/c"]
  exact ⟨hcalls, hnests, by decide +kernel, hsame _ hcalls⟩

end Containment

end DepGraph
