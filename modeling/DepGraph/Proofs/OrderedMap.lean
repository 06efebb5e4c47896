/-
  DepGraph — maps that are written one pair after the other.

  A run of writes enters the keys that are new, in the order in which they come, and
  changes the values of the others in place.  So a map laid over another one gives the
  values of its own keys, and leaves the other keys what they had.

  * `keys_foldl_modify`: the keys after a run of writes.
  * `get?_foldl_insert`: the values after a run of replacing writes.
  * `keys_overlay`, `get?_overlay`: one map laid over another.
  * `mem_of_get?_ofList`, `get?_ofList`: a map by its pairs.
  * `entries_ofList_of_length`: a map that has as many pairs as were written has these.
-/
import Mathlib.Data.List.Perm.Subperm
import DepGraph.OrderedMap

namespace DepGraph.OrderedMap

variable {κ : Type u} {α : Type v} {β : Type w} [DecidableEq κ]

/-- Of distinct keys, those that are new are entered in order. -/
theorem keys_foldl_modify (change : β → Option α → α) {l : List (κ × β)}
    (h : (l.map Prod.fst).Nodup) (m : OrderedMap κ α) :
    (l.foldl (fun m e => m.modify e.1 (change e.2)) m).keys =
      m.keys ++ (l.map Prod.fst).filter (· ∉ m.keys) := by
  induction l generalizing m with
  | nil => simp
  | cons e rest ih =>
    obtain ⟨hnew, hrest⟩ := List.nodup_cons.1 h
    rw [List.foldl_cons, ih hrest, keys_modify, List.map_cons]
    by_cases he : e.1 ∈ m.keys
    · rw [if_pos he, List.filter_cons_of_neg (by simpa using he)]
    · -- no later key is the one that is entered
      have hlater : (rest.map Prod.fst).filter (· ∉ m.keys ++ [e.1]) =
          (rest.map Prod.fst).filter (· ∉ m.keys) := by
        refine List.filter_congr fun k hk => ?_
        have hne : k ≠ e.1 := fun heq => hnew (heq ▸ hk)
        simp [hne]
      rw [if_neg he, List.filter_cons_of_pos (by simpa using he), hlater, List.append_assoc,
        List.singleton_append]

theorem get?_insert (m : OrderedMap κ α) (k k' : κ) (a : α) :
    (m.insert k a).get? k' = if k' = k then some a else m.get? k' := by
  split
  · next h =>
    subst h
    exact get?_modify_self m k' _
  · next h => exact get?_modify_of_ne m h _

/-- Of distinct keys, each gets its value, and the others keep theirs. -/
theorem get?_foldl_insert {l : List (κ × α)} (h : (l.map Prod.fst).Nodup) (m : OrderedMap κ α)
    (k : κ) :
    (l.foldl (fun m e => m.insert e.1 e.2) m).get? k = (lookup k l).or (m.get? k) := by
  induction l generalizing m with
  | nil => simp [lookup]
  | cons e rest ih =>
    obtain ⟨hnew, hrest⟩ := List.nodup_cons.1 h
    rw [List.foldl_cons, ih hrest, lookup, get?_insert]
    by_cases he : e.1 = k
    · subst he
      -- the key is not written again
      have hnone : lookup e.1 rest = none := lookup_eq_none_iff.2 hnew
      simp [hnone]
    · rw [if_neg he, if_neg (Ne.symm he)]

/-- What a key has after a run of writes was written, or stood there before. -/
theorem mem_of_get?_foldl_insert {l : List (κ × α)} {m : OrderedMap κ α} {k : κ} {a : α}
    (h : (l.foldl (fun m e => m.insert e.1 e.2) m).get? k = some a) :
    (k, a) ∈ l ∨ m.get? k = some a := by
  induction l generalizing m with
  | nil => exact .inr h
  | cons e rest ih =>
    rcases ih h with hmem | hget
    · exact .inl (List.mem_cons_of_mem e hmem)
    · rw [get?_insert] at hget
      split at hget
      · next hk =>
        obtain rfl := Option.some.inj hget
        exact .inl (hk ▸ List.mem_cons_self)
      · exact .inr hget

theorem mem_of_get?_ofList {l : List (κ × α)} {k : κ} {a : α} (h : (ofList l).get? k = some a) :
    (k, a) ∈ l :=
  (mem_of_get?_foldl_insert h).resolve_right nofun

theorem keys_overlay (below above : OrderedMap κ α) :
    (below.overlay above).keys = below.keys ++ above.keys.filter (· ∉ below.keys) :=
  keys_foldl_modify (fun a _ => a) above.nodup_keys below

theorem get?_overlay (below above : OrderedMap κ α) (k : κ) :
    (below.overlay above).get? k = (above.get? k).or (below.get? k) :=
  get?_foldl_insert above.nodup_keys below k

theorem get?_ofList {l : List (κ × α)} (h : (l.map Prod.fst).Nodup) (k : κ) :
    (ofList l).get? k = lookup k l :=
  (get?_foldl_insert h empty k).trans (Option.or_none ..)

/-- If as many pairs are kept as were written, they are those that were written. -/
theorem entries_ofList_of_length {l : List (κ × α)} (h : l.length ≤ (ofList l).entries.length) :
    (ofList l).entries = l := by
  have hsub : (ofList l).keys ⊆ l.map Prod.fst := by
    intro k hk
    obtain ⟨a, ha⟩ := Option.isSome_iff_exists.1 (get?_isSome_iff.2 hk)
    exact List.mem_map_of_mem (mem_of_get?_ofList ha)
  have hlen : (l.map Prod.fst).length ≤ (ofList l).keys.length := by
    rwa [List.length_map, keys, List.length_map]
  have hperm := (List.subperm_of_subset (ofList l).nodup hsub).perm_of_length_le hlen
  have hnodup : (l.map Prod.fst).Nodup := hperm.nodup_iff.1 (ofList l).nodup
  exact (entries_foldl_insert l empty (by simpa [empty] using hnodup)).trans (List.nil_append l)

end DepGraph.OrderedMap
