/-
  DepGraph — following targets is reachability.

  `follow` keeps the names that are still due.  Two facts carry it: every name
  that was reached and is no longer due has all its targets among those reached,
  and the names due and not yet reached together decrease with every name
  followed.  So the fuel of `reachableFrom` is enough, and what it gives is
  closed under targets.

  * `Leads`: one step from an entity to a target.
  * `mem_reachableFrom`: a name is reached iff a chain of targets leads to it
    from a name to start with.
-/
import Mathlib.Data.Finset.Card
import Mathlib.Logic.Relation
import DepGraph.Graph.Dependencies

namespace DepGraph.Dependencies

open Relation

/-- A name is a target of an entity. -/
def Leads (deps : Dependencies) (name target : String) : Prop := target ∈ targets deps name

/-! ## The measure -/

/-- The targets of all entities. -/
def allTargets (deps : Dependencies) : List String := deps.entries.flatMap (·.2)

theorem mem_allTargets {deps : Dependencies} {name target : String}
    (h : target ∈ targets deps name) : target ∈ allTargets deps := by
  obtain ⟨l, hl, ht⟩ := mem_targets.1 h
  exact List.mem_flatMap.2 ⟨_, OrderedMap.get?_eq_some_iff.1 hl, ht⟩

/-- The targets that are not reached yet. -/
def unreached (deps : Dependencies) (reached : List String) : Finset String :=
  (allTargets deps).toFinset \ reached.toFinset

/-- The targets of an entity that are not reached yet. -/
def fresh (deps : Dependencies) (name : String) (reached : List String) : List String :=
  (targets deps name).eraseDups.filter (· ∉ reached)

theorem mem_fresh {deps : Dependencies} {name target : String} {reached : List String} :
    target ∈ fresh deps name reached ↔ target ∈ targets deps name ∧ target ∉ reached := by
  simp [fresh, List.mem_eraseDups]

theorem nodup_eraseDups (l : List String) : l.eraseDups.Nodup := by
  match l with
  | [] => simp
  | a :: rest =>
    rw [List.eraseDups_cons, List.nodup_cons]
    refine ⟨fun h => ?_, nodup_eraseDups _⟩
    have := List.mem_eraseDups.1 h
    simp at this
  termination_by l.length
  decreasing_by exact Nat.lt_succ_of_le (List.length_filter_le _ _)

theorem nodup_fresh (deps : Dependencies) (name : String) (reached : List String) :
    (fresh deps name reached).Nodup := (nodup_eraseDups _).filter _

/-- Names that become due are no longer among those not reached. -/
theorem card_unreached_fresh (deps : Dependencies) (name : String) (reached : List String) :
    (fresh deps name reached).length +
      (unreached deps (fresh deps name reached ++ reached)).card =
        (unreached deps reached).card := by
  have hsub : (fresh deps name reached).toFinset ⊆ unreached deps reached := by
    intro target ht
    obtain ⟨ht, hr⟩ := mem_fresh.1 (List.mem_toFinset.1 ht)
    exact Finset.mem_sdiff.2
      ⟨List.mem_toFinset.2 (mem_allTargets ht), fun h => hr (List.mem_toFinset.1 h)⟩
  have hsplit : unreached deps (fresh deps name reached ++ reached) =
      unreached deps reached \ (fresh deps name reached).toFinset := by
    rw [unreached, unreached, List.toFinset_append, Finset.union_comm, sdiff_sdiff_left]
    rfl
  rw [hsplit, ← List.toFinset_card_of_nodup (nodup_fresh deps name reached), Nat.add_comm]
  exact Finset.card_sdiff_add_card_eq_card hsub

/-! ## One name followed, and all of them -/

theorem follow_cons (deps : Dependencies) (fuel : Nat) (name : String) (due reached : List String) :
    follow deps (fuel + 1) (name :: due) reached =
      follow deps fuel (fresh deps name reached ++ due) (fresh deps name reached ++ reached) := rfl

/-- Every name reached is due, or has all its targets among those reached. -/
def Expanded (deps : Dependencies) (due reached : List String) : Prop :=
  ∀ name ∈ reached, name ∈ due ∨ ∀ target ∈ targets deps name, target ∈ reached

theorem Expanded.step {deps : Dependencies} {name : String} {due reached : List String}
    (h : Expanded deps (name :: due) reached) :
    Expanded deps (fresh deps name reached ++ due) (fresh deps name reached ++ reached) := by
  have hreached : ∀ target ∈ targets deps name, target ∈ fresh deps name reached ++ reached := by
    intro target ht
    by_cases hr : target ∈ reached
    · exact List.mem_append_right _ hr
    · exact List.mem_append_left _ (mem_fresh.2 ⟨ht, hr⟩)
  intro other hother
  rcases List.mem_append.1 hother with hf | hr
  · exact .inl (List.mem_append_left _ hf)
  · rcases h other hr with hd | hall
    · rcases List.mem_cons.1 hd with rfl | hd
      · exact .inr hreached
      · exact .inl (List.mem_append_right _ hd)
    · exact .inr fun target ht => List.mem_append_right _ (hall target ht)

theorem subset_follow (deps : Dependencies) (fuel : Nat) (due reached : List String) :
    reached ⊆ follow deps fuel due reached := by
  induction fuel generalizing due reached with
  | zero => exact List.Subset.refl _
  | succ fuel ih =>
    cases due with
    | nil => exact List.Subset.refl _
    | cons name due =>
      rw [follow_cons]
      exact fun other h => ih _ _ (List.mem_append_right _ h)

/-- With enough fuel, what is reached is closed under targets. -/
theorem expanded_follow {deps : Dependencies} {fuel : Nat} {due reached : List String}
    (h : Expanded deps due reached)
    (hfuel : due.length + (unreached deps reached).card ≤ fuel) :
    Expanded deps [] (follow deps fuel due reached) := by
  induction fuel generalizing due reached with
  | zero =>
    have hdue : due = [] := List.length_eq_zero_iff.1 (by omega)
    subst hdue
    exact h
  | succ fuel ih =>
    cases due with
    | nil => exact h
    | cons name due =>
      rw [follow_cons]
      refine ih h.step ?_
      have := card_unreached_fresh deps name reached
      simp only [List.length_append, List.length_cons] at hfuel ⊢
      omega

/-- What holds of the names reached and is passed on to targets holds of all
  that is reached from them. -/
theorem follow_induction {deps : Dependencies} {P : String → Prop}
    (hstep : ∀ name target, P name → Leads deps name target → P target) {fuel : Nat}
    {due reached : List String} (hdue : due ⊆ reached) (h : ∀ name ∈ reached, P name) :
    ∀ name ∈ follow deps fuel due reached, P name := by
  induction fuel generalizing due reached with
  | zero => exact h
  | succ fuel ih =>
    cases due with
    | nil => exact h
    | cons next due =>
      rw [follow_cons]
      refine ih ?_ fun name hname => ?_
      · intro name hname
        rcases List.mem_append.1 hname with hf | hd
        · exact List.mem_append_left _ hf
        · exact List.mem_append_right _ (hdue (List.mem_cons_of_mem _ hd))
      · rcases List.mem_append.1 hname with hf | hr
        · exact hstep next name (h next (hdue List.mem_cons_self)) (mem_fresh.1 hf).1
        · exact h name hr

/-! ## Reachability -/

theorem length_allTargets_le (deps : Dependencies) : (allTargets deps).length ≤ deps.extent := by
  have key : ∀ (l : List (String × List String)) (n : Nat),
      n + (l.flatMap (·.2)).length ≤ l.foldl (fun n e => n + 1 + e.2.length) n := by
    intro l
    induction l with
    | nil => intro n; simp
    | cons e rest ih =>
      intro n
      refine le_trans ?_ (ih _)
      simp only [List.flatMap_cons, List.length_append]
      omega
  have := key deps.entries 0
  rwa [Nat.zero_add] at this

theorem card_unreached_le (deps : Dependencies) (reached : List String) :
    (unreached deps reached).card ≤ deps.extent :=
  calc (unreached deps reached).card ≤ (allTargets deps).toFinset.card :=
        Finset.card_le_card Finset.sdiff_subset
    _ ≤ (allTargets deps).length := List.toFinset_card_le _
    _ ≤ deps.extent := length_allTargets_le deps

/-- What is reached from some names is closed under targets. -/
theorem closed_reachableFrom {deps : Dependencies} {start : List String} {name target : String}
    (h : name ∈ reachableFrom deps start) (ht : Leads deps name target) :
    target ∈ reachableFrom deps start := by
  have hfuel : start.length + (unreached deps start).card ≤ deps.extent + start.length := by
    have := card_unreached_le deps start
    omega
  have hex : Expanded deps start start := fun name hname => .inl hname
  rcases expanded_follow hex hfuel name h with hnil | hall
  · exact absurd hnil List.not_mem_nil
  · exact hall target ht

/-- **What is reached is what chains of targets lead to.** -/
theorem mem_reachableFrom {deps : Dependencies} {start : List String} {name : String} :
    name ∈ reachableFrom deps start ↔ ∃ s ∈ start, ReflTransGen (Leads deps) s name := by
  constructor
  · refine follow_induction (P := fun name => ∃ s ∈ start, ReflTransGen (Leads deps) s name)
      ?_ (List.Subset.refl _) (fun name hname => ⟨name, hname, .refl⟩) name
    rintro name target ⟨s, hs, hchain⟩ hstep
    exact ⟨s, hs, hchain.tail hstep⟩
  · rintro ⟨s, hs, hchain⟩
    induction hchain with
    | refl => exact subset_follow deps _ _ _ hs
    | tail _ hstep ih => exact closed_reachableFrom ih hstep

end DepGraph.Dependencies
