/-
  DepGraph — what collapsing a forest leaves.

  Going down from a node that is spliced out, from only child to only child, one comes
  to a node that stays: it stands in for the first one.  No splice changes what stands
  in for the other nodes, so none changes the edges that the nodes that stay have to
  what stands in for their children.  When no node is left to be spliced out, these are
  all edges: it does not matter in which order the nodes are spliced out.

  * `Skipped`: the nodes that are spliced out.
  * `standIn`: what stands in for a node; `standIn_eq_iff` is the way down to it, and
    `standIn_of_not_skipped` and `standIn_of_skipped` are its equations.
  * `replaced`: the edges from the nodes that stay; `replaced_splice` is that no splice
    changes them.
  * `Partway`: what holds after some splices.
  * `collapse_eq_replaced`: what collapsing leaves, and what lies below what in it.
-/
import DepGraph.Proofs.Containment.Forest

namespace DepGraph.Containment

open Relation DepGraph.Cycle

/-- A node that is not the root, that no dependency touches, and that contains exactly
  one node. -/
def Skipped (root : String) (connected : List String) (edges : List Edge) (name : String) : Prop :=
  name ≠ root ∧ name ∉ connected ∧ edges.countP (·.1 == name) = 1

instance (root : String) (connected : List String) (edges : List Edge) (name : String) :
    Decidable (Skipped root connected edges name) :=
  inferInstanceAs (Decidable (_ ∧ _ ∧ _))

/-- Go down from a node, at most `fuel` times, as long as nodes are skipped. -/
def descend (root : String) (connected : List String) (edges : List Edge) : Nat → String → String
  | 0, name => name
  | fuel + 1, name =>
    if Skipped root connected edges name then
      match next? edges name with
      | some child => descend root connected edges fuel child
      | none => name
    else name

/-- The node that stands in for a node: itself if it stays, else what stands in for its
  only child. -/
def standIn (root : String) (connected : List String) (edges : List Edge) (name : String) :
    String :=
  descend root connected edges edges.length name

/-- The edges from nodes that stay, each to what stands in for its child. -/
def replaced (root : String) (connected : List String) (edges : List Edge) : List Edge :=
  (edges.filter fun e => ¬ Skipped root connected edges e.1).map fun e =>
    (e.1, standIn root connected edges e.2)

/-- An edge from a node that is skipped. -/
def Passes (root : String) (connected : List String) (edges : List Edge) (a b : String) : Prop :=
  Skipped root connected edges a ∧ Step edges a b

section
variable {root : String} {connected : List String} {edges : List Edge} {name child : String}

theorem isTrivial_iff {e : Edge} :
    isTrivial root connected edges e = true ↔ Skipped root connected edges e.1 := by
  simp [isTrivial, Skipped, and_assoc]

theorem Skipped.hasSource (h : Skipped root connected edges name) :
    hasSource edges name = true := by
  have hpos : 0 < edges.countP (·.1 == name) := by
    rw [h.2.2]
    exact Nat.one_pos
  exact List.any_eq_true.2 (List.countP_pos_iff.1 hpos)

/-- As long as some node is skipped, one is spliced out. -/
theorem not_skipped_of_splice? (h : splice? root connected edges = none) (name : String) :
    ¬ Skipped root connected edges name := by
  intro hskip
  obtain ⟨child, hedge⟩ := hasSource_iff.1 hskip.hasSource
  exact List.find?_eq_none.1 (Option.map_eq_none_iff.1 h) _ hedge (isTrivial_iff.2 hskip)

/-! ## The way down -/

theorem reflTransGen_descend (fuel : Nat) (name : String) :
    ReflTransGen (Passes root connected edges) name (descend root connected edges fuel name) := by
  induction fuel generalizing name with
  | zero => exact .refl
  | succ fuel ih =>
    rw [descend]
    split
    · next hskip =>
      obtain ⟨child, hnext⟩ := next?_isSome hskip.hasSource
      rw [hnext]
      exact .head ⟨hskip, step_of_next? hnext⟩ (ih child)
    · exact .refl

/-- In a forest the way down ends: the nodes that were passed are distinct, and each has
  an edge. -/
theorem not_skipped_descend (hforest : IsForest edges) {fuel : Nat} {before : List String}
    (hmet : Met edges before name) (hnodup : before.Nodup)
    (hbefore : before ⊆ edges.map Prod.fst) (hfuel : edges.length ≤ fuel + before.length) :
    ¬ Skipped root connected edges (descend root connected edges fuel name) := by
  induction fuel generalizing name before with
  | zero =>
    intro hskip
    have hnew : name ∉ before := fun hmem => hforest.acyclic ⟨name, hmet name hmem⟩
    have hsub : name :: before ⊆ edges.map Prod.fst :=
      List.cons_subset.2 ⟨mem_sources hskip.hasSource, hbefore⟩
    have hle := ((List.nodup_cons.2 ⟨hnew, hnodup⟩).subperm hsub).length_le
    rw [List.length_cons, List.length_map] at hle
    omega
  | succ fuel ih =>
    rw [descend]
    split
    · next hskip =>
      have hnew : name ∉ before := fun hmem => hforest.acyclic ⟨name, hmet name hmem⟩
      obtain ⟨child, hnext⟩ := next?_isSome hskip.hasSource
      rw [hnext]
      refine ih (hmet.step (step_of_next? hnext)) (List.nodup_cons.2 ⟨hnew, hnodup⟩)
        (List.cons_subset.2 ⟨mem_sources hskip.hasSource, hbefore⟩) ?_
      rw [List.length_cons]
      omega
    · next hstays => exact hstays

/-- A node that is skipped has one edge only. -/
theorem passes_rightUnique : Relator.RightUnique (Passes root connected edges) := by
  rintro a b c ⟨hskip, hb⟩ ⟨-, hc⟩
  have heq : (a, b) = (a, c) := eq_of_countP_eq_one hskip.2.2 hc hb rfl
  exact congrArg Prod.snd heq

/-- The way down from a node ends at one node only. -/
theorem eq_of_passes {a b c : String} (hab : ReflTransGen (Passes root connected edges) a b)
    (hb : ¬ Skipped root connected edges b) (hac : ReflTransGen (Passes root connected edges) a c)
    (hc : ¬ Skipped root connected edges c) : b = c := by
  rcases hab.total_of_right_unique passes_rightUnique hac with h | h
  · rcases h.cases_head with rfl | ⟨_, ⟨hskip, -⟩, -⟩
    · rfl
    · exact absurd hskip hb
  · rcases h.cases_head with rfl | ⟨_, ⟨hskip, -⟩, -⟩
    · rfl
    · exact absurd hskip hc

/-! ## What stands in for a node -/

theorem not_skipped_standIn (h : IsForest edges) (name : String) :
    ¬ Skipped root connected edges (standIn root connected edges name) := by
  have hmet : Met edges [] name := fun _ hx => absurd hx List.not_mem_nil
  exact not_skipped_descend h hmet List.nodup_nil (List.nil_subset _) (Nat.le_refl _)

theorem standIn_eq_iff (h : IsForest edges) {other : String} :
    standIn root connected edges name = other ↔
      ReflTransGen (Passes root connected edges) name other ∧
        ¬ Skipped root connected edges other := by
  constructor
  · rintro rfl
    exact ⟨reflTransGen_descend _ name, not_skipped_standIn h name⟩
  · rintro ⟨hdown, hstays⟩
    exact eq_of_passes (reflTransGen_descend _ name) (not_skipped_standIn h name) hdown hstays

theorem standIn_of_not_skipped (h : IsForest edges)
    (hstays : ¬ Skipped root connected edges name) : standIn root connected edges name = name :=
  (standIn_eq_iff h).2 ⟨.refl, hstays⟩

theorem standIn_of_skipped (h : IsForest edges) (hskip : Skipped root connected edges name)
    (hchild : (name, child) ∈ edges) :
    standIn root connected edges name = standIn root connected edges child := by
  obtain ⟨hdown, hstays⟩ := (standIn_eq_iff h).1 (rfl : standIn root connected edges child = _)
  exact (standIn_eq_iff h).2 ⟨.head ⟨hskip, hchild⟩ hdown, hstays⟩

/-- Without nodes that are skipped, every node stands in for itself. -/
theorem replaced_eq_self (h : IsForest edges)
    (hnone : ∀ name, ¬ Skipped root connected edges name) :
    replaced root connected edges = edges := by
  have hkept : (edges.filter fun e => ¬ Skipped root connected edges e.1) = edges :=
    List.filter_eq_self.2 fun e _ => decide_eq_true (hnone e.1)
  rw [replaced, hkept]
  refine (List.map_congr_left fun e _ => ?_).trans (List.map_id edges)
  rw [standIn_of_not_skipped h (hnone e.2), id]

/-! ## One splice -/

section
variable {e : Edge} (h : IsForest edges) (he : e ∈ edges)
  (hskip : Skipped root connected edges e.1)
include h he hskip

/-- The other nodes contain as many nodes as before. -/
theorem skipped_splice_iff : Skipped root connected (splice e edges) name ↔
    Skipped root connected edges name ∧ name ≠ e.1 := by
  have hcount : (splice e edges).countP (·.1 == name) =
      ((edges.map Prod.fst).filter (· != e.1)).count name := by
    rw [← map_fst_splice h he hskip.2.2, List.count, List.countP_map]
    rfl
  unfold Skipped
  rw [hcount]
  by_cases hname : name = e.1
  · rw [List.count_eq_zero_of_not_mem (by simp [hname])]
    simp [hname]
  · rw [List.count_filter (by simpa using hname), List.count, List.countP_map]
    exact ⟨fun hs => ⟨hs, hname⟩, fun hs => hs.1⟩

theorem passes_splice {a b : String} (hab : Passes root connected edges a b) (ha : a ≠ e.1) :
    Passes root connected (splice e edges) a (passOver e b) :=
  ⟨(skipped_splice_iff h he hskip).2 ⟨hab.1, ha⟩, step_splice h he hskip.2.2 hab.2 ha⟩

/-- What stands in for the other nodes is as before, and what stands in for the child
  is what stood in for the node that is spliced out. -/
theorem standIn_splice (name : String) :
    standIn root connected (splice e edges) (passOver e name) =
      standIn root connected edges name := by
  obtain ⟨hdown, hstays⟩ := (standIn_eq_iff h).1 (rfl : standIn root connected edges name = _)
  have hne : standIn root connected edges name ≠ e.1 := fun heq => hstays (heq ▸ hskip)
  refine (standIn_eq_iff (h.splice he hskip.2.2)).2 ⟨?_, fun hs => ?_⟩
  · exact reflTransGen_passOver h he hskip.2.2 (fun _ _ hab => hab.2)
      (fun _ _ hab ha => passes_splice h he hskip hab ha) hdown hne
  · exact hstays ((skipped_splice_iff h he hskip).1 hs).1

theorem replaced_splice :
    replaced root connected (splice e edges) = replaced root connected edges := by
  have hkept : ((splice e edges).filter fun x => ¬ Skipped root connected (splice e edges) x.1) =
      (edges.filter fun x => ¬ Skipped root connected edges x.1).map
        fun x => (x.1, passOver e x.2) := by
    rw [splice_eq h he hskip.2.2, List.filter_map, List.filter_filter, ← splice_eq h he hskip.2.2]
    congr 1
    refine List.filter_congr fun x _ => ?_
    rw [Bool.eq_iff_iff]
    simp only [Function.comp_apply, skipped_splice_iff h he hskip, Bool.and_eq_true,
      decide_eq_true_eq, bne_iff_ne]
    constructor
    · rintro ⟨hs, hne⟩ hx
      exact hs ⟨hx, hne⟩
    · intro hs
      exact ⟨fun hx => hs hx.1, fun heq => hs (heq ▸ hskip)⟩
  rw [replaced, hkept, List.map_map]
  refine List.map_congr_left fun x _ => ?_
  exact congrArg (x.1, ·) (standIn_splice h he hskip x.2)

end

end

/-! ## All splices -/

/-- What holds of the edges after some nodes of a forest are spliced out. -/
structure Partway (root : String) (connected : List String) (contains edges : List Edge) :
    Prop where
  forest : IsForest edges
  skipped : ∀ name, Skipped root connected edges name → Skipped root connected contains name
  replaced : replaced root connected edges = replaced root connected contains
  below : ∀ u v, ¬ Skipped root connected contains u → ¬ Skipped root connected contains v →
    (TransGen (Step edges) u v ↔ TransGen (Step contains) u v)

section
variable {root : String} {connected : List String} {contains edges : List Edge} {e : Edge}

theorem IsForest.partway (h : IsForest contains) : Partway root connected contains contains :=
  ⟨h, fun _ hs => hs, rfl, fun _ _ _ _ => .rfl⟩

theorem Partway.splice (h : Partway root connected contains edges) (he : e ∈ edges)
    (hskip : Skipped root connected edges e.1) :
    Partway root connected contains (splice e edges) where
  forest := h.forest.splice he hskip.2.2
  skipped name hs := h.skipped name ((skipped_splice_iff h.forest he hskip).1 hs).1
  replaced := (replaced_splice h.forest he hskip).trans h.replaced
  below u v hu hv := by
    have hne (name : String) (hname : ¬ Skipped root connected contains name) : name ≠ e.1 :=
      fun heq => hname (heq ▸ h.skipped _ hskip)
    rw [transGen_splice_iff h.forest he hskip.2.2 (hne u hu) (hne v hv)]
    exact h.below u v hu hv

theorem partway_collapse (h : IsForest contains) (dependencies : List Edge) (root : String) :
    Partway root (endpoints dependencies) contains (collapse contains dependencies root) :=
  collapse_induction h.partway fun _ _ hpart he htrivial =>
    hpart.splice he (isTrivial_iff.1 htrivial)

end

/-- Collapsing a forest splices out nodes until none is left to be spliced out, and
  leaves, in their order, the edges from the nodes that stay, each to what stands in for
  its child.  The nodes that stay lie below each other as before. -/
theorem collapse_eq_replaced {contains : List Edge} (h : IsForest contains)
    (dependencies : List Edge) (root : String) :
    ReflTransGen (fun es es' => splice? root (endpoints dependencies) es = some es') contains
        (collapse contains dependencies root) ∧
      splice? root (endpoints dependencies) (collapse contains dependencies root) = none ∧
      (∀ a, ¬ Skipped root (endpoints dependencies) contains a →
        standIn root (endpoints dependencies) contains a = a) ∧
      (∀ a b, Skipped root (endpoints dependencies) contains a → (a, b) ∈ contains →
        standIn root (endpoints dependencies) contains a =
          standIn root (endpoints dependencies) contains b) ∧
      collapse contains dependencies root =
        (contains.filter fun e => ¬ Skipped root (endpoints dependencies) contains e.1).map
          (fun e => (e.1, standIn root (endpoints dependencies) contains e.2)) ∧
      ∀ u v, ¬ Skipped root (endpoints dependencies) contains u →
        ¬ Skipped root (endpoints dependencies) contains v →
        (TransGen (Step (collapse contains dependencies root)) u v ↔
          TransGen (Step contains) u v) := by
  have hpart := partway_collapse h dependencies root
  have hend := splice?_collapse contains dependencies root
  refine ⟨reflTransGen_collapse contains dependencies root, hend,
    fun a => standIn_of_not_skipped h, fun a b => standIn_of_skipped h, ?_, hpart.below⟩
  calc collapse contains dependencies root
      = replaced root (endpoints dependencies) (collapse contains dependencies root) :=
        (replaced_eq_self hpart.forest (not_skipped_of_splice? hend)).symm
    _ = replaced root (endpoints dependencies) contains := hpart.replaced

/-- Two chains: one below the root and one above a name that a dependency touches. -/
def chains : List Edge :=
  [("", "src"), ("src", "src/a"), ("src/a", "src/a/b"), ("src/a/b", "src/a/b/c"),
    ("lib", "lib/x"), ("src/a/b", "src/a/b/d"), ("lib/x", "lib/x/y"), ("lib/x/y", "lib/x/y/z")]

theorem collapse_eq_replaced_chains :
    IsForest chains ∧
      collapse chains [("lib/x/y", "src/a/b/c")] "src" =
        [("src", "src/a/b"), ("src/a/b", "src/a/b/c"), ("src/a/b", "src/a/b/d"),
          ("lib/x/y", "lib/x/y/z")] ∧
      standIn "src" ["lib/x/y", "src/a/b/c"] chains "lib" = "lib/x/y" ∧
      TransGen (Step (collapse chains [("lib/x/y", "src/a/b/c")] "src")) "src" "src/a/b/d" := by
  have hforest : IsForest chains := isForest_of_longer (by decide) (by decide)
  obtain ⟨-, -, hstays, hskipped, hclosed, hbelow⟩ :=
    collapse_eq_replaced hforest [("lib/x/y", "src/a/b/c")] "src"
  refine ⟨hforest, hclosed.trans (by decide), ?_, (hbelow _ _ (by decide) (by decide)).2 ?_⟩
  · exact (hskipped "lib" "lib/x" (by decide) (by decide)).trans
      ((hskipped "lib/x" "lib/x/y" (by decide) (by decide)).trans (hstays "lib/x/y" (by decide)))
  · have habove : TransGen (Step chains) "src" "src/a/b" :=
      .head (b := "src/a") (by simp [Step, chains]) (.single (by simp [Step, chains]))
    exact habove.tail (by simp [Step, chains])

end DepGraph.Containment
