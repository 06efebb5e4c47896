/-
  DepGraph — finite maps that remember the order in which their keys first came.

  Dependency maps, name maps and decoded objects are all answered in the order
  in which their keys were first written, so the order is part of the type.

  * `OrderedMap κ α`: pairs in order of first insertion, no key twice (an
    invariant of the type).
  * `get?` is the view through which the operations are described; `keys` is
    the order.
  * `insert` replaces a value in place, `insertNew` keeps the first value,
    `modify` is what both are built from.
  * `keys_modify`, `get?_modify_self`, `get?_modify_of_ne`: what one write does
    to the two views.
-/

namespace DepGraph

/-- A finite map as the list of its pairs in order of first insertion. -/
structure OrderedMap (κ : Type u) (α : Type v) where
  /-- The pairs, oldest key first. -/
  entries : List (κ × α)
  /-- No key occurs twice. -/
  nodup_keys : (entries.map Prod.fst).Nodup
  deriving DecidableEq

namespace OrderedMap

variable {κ : Type u} {α : Type v} {β : Type w}

/-- The map without keys. -/
def empty : OrderedMap κ α := ⟨[], by simp⟩

instance : EmptyCollection (OrderedMap κ α) := ⟨empty⟩

instance : Inhabited (OrderedMap κ α) := ⟨empty⟩

/-- The keys, oldest first. -/
def keys (m : OrderedMap κ α) : List κ := m.entries.map Prod.fst

/-- No key was ever written. -/
def isEmpty (m : OrderedMap κ α) : Bool := m.entries.isEmpty

theorem nodup (m : OrderedMap κ α) : m.keys.Nodup := m.nodup_keys

@[ext] theorem ext {m n : OrderedMap κ α} (h : m.entries = n.entries) : m = n := by
  obtain ⟨l, hl⟩ := m
  obtain ⟨l', hl'⟩ := n
  cases h
  rfl

section Lookup

variable [DecidableEq κ]

/-- The first value that a list of pairs gives to a key. -/
def lookup (k : κ) : List (κ × α) → Option α
  | [] => none
  | (k', a) :: rest => if k' = k then some a else lookup k rest

/-- The value of a key. -/
def get? (m : OrderedMap κ α) (k : κ) : Option α := lookup k m.entries

/-- A key was written. -/
def contains (m : OrderedMap κ α) (k : κ) : Bool := (m.get? k).isSome

/-- The value of a key, or a value to use when it was never written. -/
def getD (m : OrderedMap κ α) (k : κ) (d : α) : α := (m.get? k).getD d

theorem lookup_eq_none_iff {k : κ} {l : List (κ × α)} :
    lookup k l = none ↔ k ∉ l.map Prod.fst := by
  induction l with
  | nil => simp [lookup]
  | cons p rest ih =>
    obtain ⟨k', a⟩ := p
    by_cases h : k' = k
    · simp [lookup, h]
    · simp [lookup, h, ih, Ne.symm h]

theorem contains_iff_mem {m : OrderedMap κ α} {k : κ} : m.contains k = true ↔ k ∈ m.keys := by
  simp only [contains, get?, Option.isSome_iff_ne_none, ne_eq, lookup_eq_none_iff, keys,
    Classical.not_not]

/-! ## Writing -/

/-- Change the value of a key in place, or append the key when it is new. -/
def modifyEntries (k : κ) (f : Option α → α) : List (κ × α) → List (κ × α)
  | [] => [(k, f none)]
  | (k', a) :: rest =>
    if k' = k then (k', f (some a)) :: rest else (k', a) :: modifyEntries k f rest

theorem map_fst_modifyEntries (k : κ) (f : Option α → α) (l : List (κ × α)) :
    (modifyEntries k f l).map Prod.fst =
      if k ∈ l.map Prod.fst then l.map Prod.fst else l.map Prod.fst ++ [k] := by
  induction l with
  | nil => simp [modifyEntries]
  | cons p rest ih =>
    obtain ⟨k', a⟩ := p
    by_cases h : k' = k
    · simp [modifyEntries, h]
    · have hk : ¬ k = k' := fun e => h e.symm
      by_cases hm : k ∈ rest.map Prod.fst
      · simp only [modifyEntries, h, if_false, List.map_cons, ih, hm, if_true, List.mem_cons,
          or_true]
      · simp only [modifyEntries, h, if_false, List.map_cons, ih, hm, List.mem_cons, hk,
          or_self, List.cons_append]

theorem nodup_modifyEntries {k : κ} {f : Option α → α} {l : List (κ × α)}
    (h : (l.map Prod.fst).Nodup) : ((modifyEntries k f l).map Prod.fst).Nodup := by
  rw [map_fst_modifyEntries]
  split
  · exact h
  · next hk =>
    rw [List.nodup_append]
    exact ⟨h, by simp, fun a ha b hb hab => by simp_all⟩

/-- Give a key the value computed from the one it has. A new key comes last. -/
def modify (m : OrderedMap κ α) (k : κ) (f : Option α → α) : OrderedMap κ α :=
  ⟨modifyEntries k f m.entries, nodup_modifyEntries m.nodup_keys⟩

/-- Give a key a value, in place when it has one. -/
def insert (m : OrderedMap κ α) (k : κ) (a : α) : OrderedMap κ α := m.modify k fun _ => a

/-- Give a key a value unless it has one. -/
def insertNew (m : OrderedMap κ α) (k : κ) (a : α) : OrderedMap κ α := m.modify k (·.getD a)

/-- The map of a list of pairs written one after the other: a later value
  replaces an earlier one in place. -/
def ofList (l : List (κ × α)) : OrderedMap κ α := l.foldl (fun m p => m.insert p.1 p.2) empty

/-- Lay one map over another: its values win, its new keys come last. -/
def overlay (m above : OrderedMap κ α) : OrderedMap κ α :=
  above.entries.foldl (fun m p => m.insert p.1 p.2) m

@[simp] theorem keys_modify (m : OrderedMap κ α) (k : κ) (f : Option α → α) :
    (m.modify k f).keys = if k ∈ m.keys then m.keys else m.keys ++ [k] :=
  map_fst_modifyEntries k f m.entries

theorem lookup_modifyEntries_self (k : κ) (f : Option α → α) (l : List (κ × α)) :
    lookup k (modifyEntries k f l) = some (f (lookup k l)) := by
  induction l with
  | nil => simp [modifyEntries, lookup]
  | cons p rest ih =>
    obtain ⟨k', a⟩ := p
    by_cases h : k' = k <;> simp [modifyEntries, lookup, h, ih]

theorem lookup_modifyEntries_of_ne {k k' : κ} (h : k' ≠ k) (f : Option α → α)
    (l : List (κ × α)) : lookup k' (modifyEntries k f l) = lookup k' l := by
  induction l with
  | nil => simp [modifyEntries, lookup, Ne.symm h]
  | cons p rest ih =>
    obtain ⟨k'', a⟩ := p
    by_cases h₁ : k'' = k
    · subst h₁; simp [modifyEntries, lookup, Ne.symm h]
    · by_cases h₂ : k'' = k'
      · subst h₂; simp [modifyEntries, lookup, h₁]
      · simp [modifyEntries, lookup, h₁, h₂, ih]

@[simp] theorem get?_modify_self (m : OrderedMap κ α) (k : κ) (f : Option α → α) :
    (m.modify k f).get? k = some (f (m.get? k)) :=
  lookup_modifyEntries_self k f m.entries

theorem get?_modify_of_ne (m : OrderedMap κ α) {k k' : κ} (h : k' ≠ k) (f : Option α → α) :
    (m.modify k f).get? k' = m.get? k' :=
  lookup_modifyEntries_of_ne h f m.entries

end Lookup

/-! ## Whole maps -/

/-- Recompute every value from its key and itself. -/
def mapValues (f : κ → α → β) (m : OrderedMap κ α) : OrderedMap κ β :=
  ⟨m.entries.map fun p => (p.1, f p.1 p.2), by
    have h := m.nodup_keys
    simpa [List.map_map, Function.comp_def] using h⟩

/-- Keep the pairs that pass a test, in order. -/
def filter (p : κ → α → Bool) (m : OrderedMap κ α) : OrderedMap κ α :=
  ⟨m.entries.filter fun e => p e.1 e.2,
    (m.nodup_keys.sublist (List.filter_sublist.map Prod.fst))⟩

@[simp] theorem keys_mapValues (f : κ → α → β) (m : OrderedMap κ α) :
    (m.mapValues f).keys = m.keys := by
  simp [keys, mapValues, Function.comp_def]

/-- Whether a pair is kept by its key is not changed by recomputing the values. -/
theorem filter_mapValues (p : κ → Bool) (f : κ → α → β) (m : OrderedMap κ α) :
    (m.mapValues f).filter (fun k _ => p k) = (m.filter fun k _ => p k).mapValues f := by
  ext1
  simp [mapValues, filter, List.filter_map, Function.comp_def]

theorem filter_congr_keys {p q : κ → Bool} {m : OrderedMap κ α} (h : ∀ k ∈ m.keys, p k = q k) :
    (m.filter fun k _ => p k) = m.filter fun k _ => q k := by
  ext1
  exact List.filter_congr fun e he => h e.1 (List.mem_map_of_mem he)

theorem filter_eq_self {p : κ → Bool} {m : OrderedMap κ α} (h : ∀ k ∈ m.keys, p k = true) :
    (m.filter fun k _ => p k) = m := by
  ext1
  exact List.filter_eq_self.2 fun e he => h e.1 (List.mem_map_of_mem he)

section View

variable [DecidableEq κ]

theorem get?_isSome_iff {m : OrderedMap κ α} {k : κ} : (m.get? k).isSome = true ↔ k ∈ m.keys :=
  contains_iff_mem

theorem mem_keys_of_get? {m : OrderedMap κ α} {k : κ} {a : α} (h : m.get? k = some a) :
    k ∈ m.keys := get?_isSome_iff.1 (by rw [h]; rfl)

theorem lookup_eq_some_iff {k : κ} {a : α} {l : List (κ × α)} (h : (l.map Prod.fst).Nodup) :
    lookup k l = some a ↔ (k, a) ∈ l := by
  induction l with
  | nil => simp [lookup]
  | cons p rest ih =>
    obtain ⟨k', a'⟩ := p
    obtain ⟨hk', hrest⟩ := List.nodup_cons.1 h
    by_cases hk : k' = k
    · subst hk
      have hnot : (k', a) ∉ rest := fun hm => hk' (List.mem_map.2 ⟨_, hm, rfl⟩)
      simp [lookup, hnot, eq_comm]
    · simp [lookup, hk, ih hrest, Ne.symm hk]

/-- A value is that of a key if the pair of the two was written. -/
theorem get?_eq_some_iff {m : OrderedMap κ α} {k : κ} {a : α} :
    m.get? k = some a ↔ (k, a) ∈ m.entries := lookup_eq_some_iff m.nodup_keys

theorem lookup_map_snd (k : κ) (f : κ → α → β) (l : List (κ × α)) :
    lookup k (l.map fun p => (p.1, f p.1 p.2)) = (lookup k l).map (f k) := by
  induction l with
  | nil => rfl
  | cons p rest ih =>
    by_cases h : p.1 = k
    · subst h; simp [lookup]
    · simp [lookup, h, ih]

@[simp] theorem get?_mapValues (f : κ → α → β) (m : OrderedMap κ α) (k : κ) :
    (m.mapValues f).get? k = (m.get? k).map (f k) :=
  lookup_map_snd k f m.entries

/-- A map whose values are recomputed to themselves stays as it is. -/
theorem mapValues_eq_self {f : κ → α → α} {m : OrderedMap κ α}
    (h : ∀ k a, m.get? k = some a → f k a = a) : m.mapValues f = m := by
  ext1
  refine (List.map_congr_left fun e he => ?_).trans (List.map_id _)
  rw [h e.1 e.2 (get?_eq_some_iff.2 he), id_eq]

@[simp] theorem get?_filter (p : κ → α → Bool) (m : OrderedMap κ α) (k : κ) :
    (m.filter p).get? k = (m.get? k).filter (p k) := by
  ext a
  rw [Option.filter_eq_some_iff, get?_eq_some_iff, get?_eq_some_iff]
  simp [filter]

@[simp] theorem mem_keys_filter {p : κ → Bool} {m : OrderedMap κ α} {k : κ} :
    k ∈ (m.filter fun k _ => p k).keys ↔ k ∈ m.keys ∧ p k = true := by
  rw [← get?_isSome_iff, get?_filter, ← get?_isSome_iff]
  cases m.get? k <;> simp [Option.filter]

theorem modifyEntries_eq_self {k : κ} {f : Option α → α} {a : α} {l : List (κ × α)}
    (h : lookup k l = some a) (hf : f (some a) = a) : modifyEntries k f l = l := by
  induction l with
  | nil => simp [lookup] at h
  | cons p rest ih =>
    obtain ⟨k', a'⟩ := p
    by_cases hk : k' = k
    · simp only [lookup, hk, if_true, Option.some.injEq] at h
      simp [modifyEntries, hk, h, hf]
    · simp only [lookup, hk, if_false] at h
      simp [modifyEntries, hk, ih h]

/-- Writing the value that a key has changes nothing. -/
theorem modify_eq_self {m : OrderedMap κ α} {k : κ} {f : Option α → α} {a : α}
    (h : m.get? k = some a) (hf : f (some a) = a) : m.modify k f = m := by
  obtain ⟨l, hl⟩ := m
  simp only [modify, mk.injEq]
  exact modifyEntries_eq_self h hf

theorem modifyEntries_of_not_mem {k : κ} {l : List (κ × α)} (h : k ∉ l.map Prod.fst)
    (f : Option α → α) : modifyEntries k f l = l ++ [(k, f none)] := by
  induction l with
  | nil => rfl
  | cons e rest ih =>
    rw [List.map_cons, List.mem_cons, not_or] at h
    rw [modifyEntries, if_neg (Ne.symm h.1), ih h.2, List.cons_append]

theorem entries_foldl_insert (l : List (κ × α)) (m : OrderedMap κ α)
    (h : ((m.entries ++ l).map Prod.fst).Nodup) :
    (l.foldl (fun m e => m.insert e.1 e.2) m).entries = m.entries ++ l := by
  induction l generalizing m with
  | nil => simp
  | cons e rest ih =>
    rw [List.map_append, List.map_cons] at h
    have hnew : e.1 ∉ m.entries.map Prod.fst := fun hmem =>
      (List.nodup_append.1 h).2.2 _ hmem _ List.mem_cons_self rfl
    have hentries : (m.insert e.1 e.2).entries = m.entries ++ [e] :=
      modifyEntries_of_not_mem hnew _
    rw [List.foldl_cons, ih _ (by rw [hentries]; simpa using h), hentries, List.append_assoc]
    rfl

theorem keys_insert_ne_nil (m : OrderedMap κ α) (k : κ) (a : α) : (m.insert k a).keys ≠ [] := by
  have hkeys : (m.insert k a).keys = if k ∈ m.keys then m.keys else m.keys ++ [k] :=
    keys_modify m k _
  rw [hkeys]
  split
  · next hk => exact List.ne_nil_of_mem hk
  · simp

theorem keys_foldl_insert_ne_nil (l : List (κ × α)) {m : OrderedMap κ α} (h : m.keys ≠ []) :
    (l.foldl (fun m e => m.insert e.1 e.2) m).keys ≠ [] := by
  induction l generalizing m with
  | nil => exact h
  | cons e rest ih => exact ih (m.keys_insert_ne_nil e.1 e.2)

/-- A map holds nothing iff nothing was written. -/
theorem ofList_eq_empty_iff {l : List (κ × α)} : ofList l = ∅ ↔ l = [] := by
  constructor
  · intro h
    cases l with
    | nil => rfl
    | cons e rest =>
      exact absurd (congrArg keys h) (keys_foldl_insert_ne_nil rest (keys_insert_ne_nil _ _ _))
  · rintro rfl
    rfl

/-- The pairs of a map, written one after the other, make the map again. -/
theorem ofList_entries (m : OrderedMap κ α) : ofList m.entries = m :=
  ext ((entries_foldl_insert m.entries empty m.nodup_keys).trans (List.nil_append _))

end View

end OrderedMap

end DepGraph
