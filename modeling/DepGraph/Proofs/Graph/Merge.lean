/-
  DepGraph — merging dependency maps.

  Two maps are merged by appending the lists of the second one, entity by entity.  So the
  entities of the first map come first, then those that only the second one has; and the
  list of an entity is that of the first map and then that of the second.  A map is its
  entities, in order, and their lists: hence what is merged does not depend on which two
  of several maps are merged first.

  * `seen_foldl`: what the steps of a run append, one after the other.
  * `keys_merge`, `targets_merge`: the entities and the lists of a merged map.
  * `eq_of_keys_of_targets`: a map is its keys and their lists.
  * `merge_assoc`: merging is associative.
-/
import DepGraph.Graph.Dependencies
import DepGraph.Proofs.OrderedMap

namespace DepGraph

/-- If every step appends to what is seen of a state, a run appends what its steps
  do, one after the other. -/
theorem seen_foldl {σ α β : Type} (step : σ → α → σ) (seen : σ → List β) (more : α → List β)
    (h : ∀ s a, seen (step s a) = seen s ++ more a) (l : List α) (s : σ) :
    seen (l.foldl step s) = seen s ++ l.flatMap more := by
  induction l generalizing s with
  | nil => simp
  | cons a rest ih => rw [List.foldl_cons, ih, h, List.flatMap_cons, List.append_assoc]

namespace Dependencies

/-! ## The lists -/

theorem targets_append (deps : Dependencies) (name : String) (more : List String)
    (other : String) :
    targets (append deps name more) other =
      targets deps other ++ if name = other then more else [] := by
  unfold targets OrderedMap.getD append
  by_cases h : name = other
  · subst h
    rw [OrderedMap.get?_modify_self, if_pos rfl, Option.getD_some]
  · rw [OrderedMap.get?_modify_of_ne _ (Ne.symm h), if_neg h, List.append_nil]

theorem flatMap_lookup (l : List (String × List String)) (name : String)
    (h : (l.map Prod.fst).Nodup) :
    (l.flatMap fun e => if e.1 = name then e.2 else []) = (OrderedMap.lookup name l).getD [] := by
  induction l with
  | nil => rfl
  | cons e rest ih =>
    obtain ⟨hnew, hrest⟩ := List.nodup_cons.1 h
    by_cases he : e.1 = name
    · -- no later entry has the name
      have hnone : OrderedMap.lookup name rest = none :=
        OrderedMap.lookup_eq_none_iff.2 fun hmem => hnew (he ▸ hmem)
      simp [OrderedMap.lookup, he, ih hrest, hnone]
    · simp [OrderedMap.lookup, he, ih hrest]

theorem targets_merge (deps more : Dependencies) (name : String) :
    targets (merge deps more) name = targets deps name ++ targets more name := by
  have hrun := seen_foldl (fun acc (e : String × List String) => append acc e.1 e.2)
    (fun acc => targets acc name) (fun e => if e.1 = name then e.2 else [])
    (fun acc e => targets_append acc e.1 e.2 name) more.entries deps
  rw [flatMap_lookup _ _ more.nodup_keys] at hrun
  exact hrun

/-! ## The entities -/

theorem entries_append {deps : Dependencies} {name : String} (h : name ∉ deps.keys)
    (more : List String) : (append deps name more).entries = deps.entries ++ [(name, more)] :=
  OrderedMap.modifyEntries_of_not_mem h _

/-- The entities of the first map come first, then the new ones of the second map. -/
theorem keys_merge (deps more : Dependencies) :
    (merge deps more).keys = deps.keys ++ more.keys.filter (· ∉ deps.keys) :=
  OrderedMap.keys_foldl_modify (fun l old => old.getD [] ++ l) more.nodup_keys deps

theorem mem_keys_merge {deps more : Dependencies} {name : String} :
    name ∈ (merge deps more).keys ↔ name ∈ deps.keys ∨ name ∈ more.keys := by
  rw [keys_merge, List.mem_append, List.mem_filter, decide_eq_true_eq]
  by_cases h : name ∈ deps.keys <;> simp [h]

/-! ## Whole maps -/

theorem entries_eq_map_targets (deps : Dependencies) :
    deps.entries = deps.keys.map fun name => (name, deps.targets name) := by
  rw [OrderedMap.keys, List.map_map]
  refine ((List.map_congr_left fun e he => ?_).trans (List.map_id _)).symm
  have hget : deps.get? e.1 = some e.2 := OrderedMap.get?_eq_some_iff.2 he
  exact Prod.ext rfl (targets_of_get? hget)

/-- A map is its keys, in order, and their lists. -/
theorem eq_of_keys_of_targets {deps deps' : Dependencies} (hkeys : deps.keys = deps'.keys)
    (htargets : ∀ name, deps.targets name = deps'.targets name) : deps = deps' := by
  refine OrderedMap.ext ?_
  rw [entries_eq_map_targets, entries_eq_map_targets, hkeys]
  exact List.map_congr_left fun name _ => by rw [htargets]

/-- It does not matter which maps are merged first. -/
theorem merge_assoc (first second third : Dependencies) :
    merge (merge first second) third = merge first (merge second third) := by
  refine eq_of_keys_of_targets ?_ fun name => ?_
  · -- an entity of the third map is new if neither of the other maps has it
    have hnew : third.keys.filter (· ∉ (merge first second).keys) =
        (third.keys.filter (· ∉ second.keys)).filter (· ∉ first.keys) := by
      rw [List.filter_filter]
      refine List.filter_congr fun name _ => ?_
      simp [mem_keys_merge]
    rw [keys_merge (merge first second), hnew, keys_merge first second, keys_merge first,
      keys_merge second third, List.filter_append, List.append_assoc]
  · simp only [targets_merge, List.append_assoc]

end Dependencies

end DepGraph
