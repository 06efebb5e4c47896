/-
  DepGraph — dependency maps.

  A dependency map gives each entity the list of what it depends on, entities
  in the order in which they were first met.

  * `merge`: the lists of two maps one after the other.
  * `markExternal`: targets that are no entity of the map are tagged, or dropped.
  * `restrict`: the entities and targets that pass a test.
  * `reachableFrom`, `restrictToRoots`: what can be reached from some entities.
  * `edges`: the map as a list of edges, without repetitions and self-edges.
  * `mem_targets_restrict`, `mem_targets_markExternal`, `mem_edges`: what the
    stages do to the targets of an entity, which are the view of a map.
-/
import DepGraph.Graph.Name
import DepGraph.OrderedMap

namespace DepGraph

/-- An edge: an entity and one that it depends on. -/
abbrev Edge := String × String

/-- The entities that each entity depends on. -/
abbrev Dependencies := OrderedMap String (List String)

namespace Dependencies

/-- The targets of an entity; an unknown one has none. -/
def targets (deps : Dependencies) (name : String) : List String := deps.getD name []

theorem targets_of_get? {deps : Dependencies} {name : String} {l : List String}
    (h : deps.get? name = some l) : targets deps name = l := by
  rw [targets, OrderedMap.getD, h, Option.getD_some]

theorem mem_targets {deps : Dependencies} {name target : String} :
    target ∈ targets deps name ↔ ∃ l, deps.get? name = some l ∧ target ∈ l := by
  unfold targets OrderedMap.getD
  cases deps.get? name <;> simp

/-- Only entities have targets. -/
theorem mem_keys_of_mem_targets {deps : Dependencies} {name target : String}
    (h : target ∈ targets deps name) : name ∈ deps.keys := by
  obtain ⟨l, hl, -⟩ := mem_targets.1 h
  exact OrderedMap.mem_keys_of_get? hl

/-- Append targets to the list of an entity, which is entered if it is new. -/
def append (deps : Dependencies) (name : String) (more : List String) : Dependencies :=
  OrderedMap.modify deps name fun old => old.getD [] ++ more

/-- Append the names that a list does not hold yet. -/
def addMissing (present more : List String) : List String :=
  more.foldl (fun acc name => if name ∈ acc then acc else acc ++ [name]) present

@[simp] theorem mem_addMissing {l more : List String} {name : String} :
    name ∈ addMissing l more ↔ name ∈ l ∨ name ∈ more := by
  induction more generalizing l with
  | nil => simp [addMissing]
  | cons m rest ih =>
    change name ∈ addMissing (if m ∈ l then l else l ++ [m]) rest ↔ _
    rw [ih]
    split
    · next hm =>
      constructor
      · rintro (h | h) <;> simp [h]
      · rintro (h | h)
        · exact .inl h
        · rcases List.mem_cons.1 h with rfl | h
          · exact .inl hm
          · exact .inr h
    · simp [or_assoc]

/-- Nothing is appended iff no name is missing. -/
theorem addMissing_eq_self_iff {l more : List String} :
    addMissing l more = l ↔ ∀ name ∈ more, name ∈ l := by
  constructor
  · intro h name hname
    rw [← h]
    exact mem_addMissing.2 (.inr hname)
  · intro h
    induction more with
    | nil => rfl
    | cons m rest ih =>
      change addMissing (if m ∈ l then l else l ++ [m]) rest = l
      rw [if_pos (h m (by simp))]
      exact ih fun name hn => h name (by simp [hn])

theorem addMissing_append (l first second : List String) :
    addMissing l (first ++ second) = addMissing (addMissing l first) second :=
  List.foldl_append

/-- Append the targets that an entity does not have yet. -/
def appendMissing (deps : Dependencies) (name : String) (more : List String) : Dependencies :=
  OrderedMap.modify deps name fun old => addMissing (old.getD []) more

theorem keys_append (deps : Dependencies) (name : String) (more : List String) :
    (deps.append name more).keys =
      if name ∈ deps.keys then deps.keys else deps.keys ++ [name] := OrderedMap.keys_modify ..

theorem keys_appendMissing (deps : Dependencies) (name : String) (more : List String) :
    (deps.appendMissing name more).keys =
      if name ∈ deps.keys then deps.keys else deps.keys ++ [name] := OrderedMap.keys_modify ..

theorem targets_appendMissing (deps : Dependencies) (name : String) (more : List String)
    (other : String) :
    targets (deps.appendMissing name more) other =
      addMissing (targets deps other) (if name = other then more else []) := by
  unfold targets OrderedMap.getD appendMissing
  by_cases h : name = other
  · subst h
    rw [OrderedMap.get?_modify_self, if_pos rfl, Option.getD_some]
  · rw [OrderedMap.get?_modify_of_ne _ (Ne.symm h), if_neg h]
    rfl

/-- Nothing is appended to the list of an entity that has all targets. -/
theorem appendMissing_eq_self {deps : Dependencies} {name : String} {more : List String}
    (hk : name ∈ deps.keys) (h : ∀ target ∈ more, target ∈ targets deps name) :
    deps.appendMissing name more = deps := by
  obtain ⟨l, hl⟩ := Option.isSome_iff_exists.1 (OrderedMap.get?_isSome_iff.2 hk)
  rw [targets_of_get? hl] at h
  exact OrderedMap.modify_eq_self hl (addMissing_eq_self_iff.2 h)

/-- The lists of two maps one after the other, entities of the first one first. -/
def merge (deps more : Dependencies) : Dependencies :=
  more.entries.foldl (fun acc e => append acc e.1 e.2) deps

/-! ## Stages on the way to a graph -/

/-- The tagged form of a target: an entity of the map keeps its name. -/
def markTarget (deps : Dependencies) (name : String) : String :=
  if deps.contains name then name else markName name

/-- Tag the targets that are no entity of the map, or leave them out. -/
def markExternal (exclude : Bool) (deps : Dependencies) : Dependencies :=
  deps.mapValues fun _ targets =>
    if exclude then targets.filter deps.contains else targets.map (markTarget deps)

/-- Keep the entities and the targets that pass a test. -/
def restrict (pass : String → Bool) (deps : Dependencies) : Dependencies :=
  (deps.filter fun name _ => pass name).mapValues fun _ targets => targets.filter pass

theorem mem_targets_markExternal {exclude : Bool} {deps : Dependencies} {name target : String} :
    target ∈ targets (markExternal exclude deps) name ↔
      ∃ t ∈ targets deps name, markTarget deps t = target ∧ (exclude = true → t ∈ deps.keys) := by
  simp only [mem_targets, markExternal, OrderedMap.get?_mapValues, Option.map_eq_some_iff]
  cases exclude
  · constructor
    · rintro ⟨_, ⟨l, hl, rfl⟩, ht⟩
      obtain ⟨t, htl, rfl⟩ := List.mem_map.1 ht
      exact ⟨t, ⟨l, hl, htl⟩, rfl, by simp⟩
    · rintro ⟨t, ⟨l, hl, htl⟩, rfl, -⟩
      exact ⟨_, ⟨l, hl, rfl⟩, List.mem_map.2 ⟨t, htl, rfl⟩⟩
  · constructor
    · rintro ⟨_, ⟨l, hl, rfl⟩, ht⟩
      obtain ⟨htl, hc⟩ := List.mem_filter.1 ht
      exact ⟨target, ⟨l, hl, htl⟩, if_pos hc, fun _ => OrderedMap.contains_iff_mem.1 hc⟩
    · rintro ⟨t, ⟨l, hl, htl⟩, rfl, hk⟩
      have hc := OrderedMap.contains_iff_mem.2 (hk rfl)
      rw [markTarget, if_pos hc]
      exact ⟨_, ⟨l, hl, rfl⟩, List.mem_filter.2 ⟨htl, hc⟩⟩

@[simp] theorem keys_markExternal (exclude : Bool) (deps : Dependencies) :
    (markExternal exclude deps).keys = deps.keys := OrderedMap.keys_mapValues ..

theorem mem_targets_restrict {pass : String → Bool} {deps : Dependencies} {name target : String} :
    target ∈ targets (restrict pass deps) name ↔
      pass name = true ∧ pass target = true ∧ target ∈ targets deps name := by
  simp only [mem_targets, restrict, OrderedMap.get?_mapValues, OrderedMap.get?_filter,
    Option.map_eq_some_iff, Option.filter_eq_some_iff]
  constructor
  · rintro ⟨_, ⟨l, ⟨hl, hn⟩, rfl⟩, ht⟩
    obtain ⟨htl, hp⟩ := List.mem_filter.1 ht
    exact ⟨hn, hp, l, hl, htl⟩
  · rintro ⟨hn, hp, l, hl, htl⟩
    exact ⟨_, ⟨l, ⟨hl, hn⟩, rfl⟩, List.mem_filter.2 ⟨htl, hp⟩⟩

theorem mem_keys_restrict {pass : String → Bool} {deps : Dependencies} {name : String} :
    name ∈ (restrict pass deps).keys ↔ name ∈ deps.keys ∧ pass name = true := by
  rw [restrict, OrderedMap.keys_mapValues, OrderedMap.mem_keys_filter]

/-- What is reached by following targets, with names still to be followed.
  Every name is followed once; `fuel` bounds the number of names. -/
def follow (deps : Dependencies) : Nat → List String → List String → List String
  | 0, _, reached => reached
  | _ + 1, [], reached => reached
  | fuel + 1, name :: due, reached =>
    let fresh := (targets deps name).eraseDups.filter (· ∉ reached)
    follow deps fuel (fresh ++ due) (fresh ++ reached)

/-- The number of entities and targets, with repetitions. -/
def extent (deps : Dependencies) : Nat :=
  deps.entries.foldl (fun n e => n + 1 + e.2.length) 0

/-- The names that can be reached from some entities, these included. -/
def reachableFrom (deps : Dependencies) (start : List String) : List String :=
  follow deps (deps.extent + start.length) start start

/-- Keep the entities that can be reached from those that pass a test. -/
def restrictToRoots (pass : String → Bool) (deps : Dependencies) : Dependencies :=
  let reached := reachableFrom deps (deps.keys.filter pass)
  deps.filter fun name _ => name ∈ reached

theorem mem_targets_restrictToRoots {pass : String → Bool} {deps : Dependencies}
    {name target : String} :
    target ∈ targets (restrictToRoots pass deps) name ↔
      name ∈ reachableFrom deps (deps.keys.filter pass) ∧ target ∈ targets deps name := by
  simp only [mem_targets, restrictToRoots, OrderedMap.get?_filter, Option.filter_eq_some_iff,
    decide_eq_true_eq]
  constructor
  · rintro ⟨l, ⟨hl, hn⟩, ht⟩
    exact ⟨hn, l, hl, ht⟩
  · rintro ⟨hn, l, hl, ht⟩
    exact ⟨l, ⟨hl, hn⟩, ht⟩

/-- Keep the first of equal edges, and no edge from an entity to itself; `seen`
  are the edges met before. -/
def cleanFrom (seen : List Edge) : List Edge → List Edge
  | [] => []
  | e :: rest =>
    if e.1 = e.2 ∨ e ∈ seen then cleanFrom seen rest else e :: cleanFrom (e :: seen) rest

theorem mem_cleanFrom {seen l : List Edge} {e : Edge} :
    e ∈ cleanFrom seen l ↔ e ∈ l ∧ e.1 ≠ e.2 ∧ e ∉ seen := by
  induction l generalizing seen with
  | nil => simp [cleanFrom]
  | cons head rest ih =>
    unfold cleanFrom
    split
    · next h =>
      rw [ih]
      constructor
      · exact fun ⟨hm, hne, hs⟩ => ⟨List.mem_cons_of_mem _ hm, hne, hs⟩
      · rintro ⟨hm, hne, hs⟩
        rcases List.mem_cons.1 hm with rfl | hm
        · rcases h with h | h <;> contradiction
        · exact ⟨hm, hne, hs⟩
    · next h =>
      obtain ⟨hne, hs⟩ := not_or.1 h
      rw [List.mem_cons, ih]
      by_cases he : e = head
      · subst he; simp [hne, hs]
      · simp [he]

theorem nodup_cleanFrom (seen l : List Edge) : (cleanFrom seen l).Nodup := by
  induction l generalizing seen with
  | nil => exact List.nodup_nil
  | cons head rest ih =>
    unfold cleanFrom
    split
    · exact ih seen
    · exact List.nodup_cons.2 ⟨fun h => (mem_cleanFrom.1 h).2.2 List.mem_cons_self, ih _⟩

/-- The edges of a map, without repetitions and self-edges. -/
def edges (deps : Dependencies) : List Edge :=
  cleanFrom [] (deps.entries.flatMap fun e => e.2.map fun target => (e.1, target))

theorem mem_edges {deps : Dependencies} {e : Edge} :
    e ∈ edges deps ↔ e.1 ≠ e.2 ∧ e.2 ∈ targets deps e.1 := by
  simp only [edges, mem_cleanFrom, List.mem_flatMap, List.mem_map, List.not_mem_nil,
    not_false_eq_true, and_true, mem_targets, OrderedMap.get?_eq_some_iff]
  constructor
  · rintro ⟨⟨⟨name, l⟩, hm, target, ht, rfl⟩, hne⟩
    exact ⟨hne, l, hm, ht⟩
  · rintro ⟨hne, l, hm, ht⟩
    exact ⟨⟨(e.1, l), hm, e.2, ht, rfl⟩, hne⟩

theorem nodup_edges (deps : Dependencies) : (edges deps).Nodup := nodup_cleanFrom ..

end Dependencies

end DepGraph
