/-
  DepGraph — the places of a containment tree.

  A tree is described by its places: each entry with the names above it, and
  whether it has a level of its own.  Entering a chain of names adds the places
  of the chain, and takes none away: an entry of the chain that something follows
  has a level from then on, and the others keep what they have.

  * `Place`, `Containment.places`: the entries of a tree, each with its place.
  * `Containment.Holds`: an entry stands at a place.
  * `Containment.holds_insert`, `Containment.holds_insertAll`: what entering
    chains adds.
  * `Containment.Distinct`: no level has a name twice, so no two entries stand at
    one place (`nodup_paths`).
  * `map_name_places`, `edges_eq`: the names and the edges of a tree are read off
    its places.
-/
import Mathlib.Data.List.Nodup
import DepGraph.Containment.Basic

namespace DepGraph

/-- An entry of a tree. -/
structure Place where
  /-- The names above the entry, from the top. -/
  above : List String
  name : String
  /-- The entry has a level of its own. -/
  inner : Bool
  deriving DecidableEq, Repr

namespace Place

/-- The names from the top down to the entry. -/
def path (x : Place) : List String := x.above ++ [x.name]

/-- The name directly above the entry, if there is one. -/
def parent? (x : Place) : Option String := x.above.getLast?

/-- The place of an entry when its whole tree stands under a name. -/
def under (name : String) (x : Place) : Place := { x with above := name :: x.above }

@[simp] theorem name_under (name : String) (x : Place) : (x.under name).name = x.name := rfl

@[simp] theorem path_under (name : String) (x : Place) : (x.under name).path = name :: x.path := rfl

theorem path_ne_nil (x : Place) : x.path ≠ [] := by simp [path]

end Place

namespace Containment

/-- The entries of a tree, each before those below it. -/
def places : Containment → List Place
  | .nil => []
  | .leaf name rest => ⟨[], name, false⟩ :: rest.places
  | .inner name below rest =>
    ⟨[], name, true⟩ :: below.places.map (·.under name) ++ rest.places

/-- The names of the first level. -/
def heads (tree : Containment) : List String := tree.entries.map Prod.fst

@[simp] theorem heads_nil : nil.heads = [] := rfl

@[simp] theorem heads_leaf (name : String) (rest : Containment) :
    (leaf name rest).heads = name :: rest.heads := rfl

@[simp] theorem heads_inner (name : String) (below rest : Containment) :
    (inner name below rest).heads = name :: rest.heads := rfl

/-! ## Names and edges -/

theorem map_name_places (tree : Containment) : tree.places.map (·.name) = tree.names := by
  induction tree with
  | nil => rfl
  | leaf name rest ih => simp [places, names, ih]
  | inner name below rest ihb ihr => simp [places, names, ← ihb, ← ihr, Function.comp_def]

theorem mem_names {tree : Containment} {name : String} :
    name ∈ tree.names ↔ ∃ x ∈ tree.places, x.name = name := by
  rw [← map_name_places, List.mem_map]

theorem name_mem_names {tree : Containment} {x : Place} (hx : x ∈ tree.places) :
    x.name ∈ tree.names := mem_names.2 ⟨x, hx, rfl⟩

/-- The pair of the name above an entry and its own name; `top` is above all. -/
def edgeAt (top : Option String) (x : Place) : Option Edge :=
  (x.parent?.or top).map fun p => (p, x.name)

theorem edgesUnder_eq (top : Option String) (tree : Containment) :
    tree.edgesUnder top = tree.places.filterMap (edgeAt top) := by
  induction tree generalizing top with
  | nil => rfl
  | leaf name rest ih =>
    rw [edgesUnder, ih, places, List.filterMap_cons]
    cases top <;> rfl
  | inner name below rest ihb ihr =>
    have hbelow : below.places.filterMap (edgeAt (some name)) =
        (below.places.map (·.under name)).filterMap (edgeAt top) := by
      rw [List.filterMap_map]
      refine List.filterMap_congr fun x _ => ?_
      -- the name above an entry is the same seen from the level above
      cases h : x.above.getLast? <;>
        simp [edgeAt, Place.parent?, Place.under, List.getLast?_cons, h]
    rw [edgesUnder, ihb, ihr, hbelow, places, List.filterMap_append, List.filterMap_cons]
    cases top <;> rfl

theorem edges_eq (tree : Containment) :
    tree.edges = tree.places.filterMap fun x => x.parent?.map fun p => (p, x.name) := by
  rw [edges, edgesUnder_eq]
  exact List.filterMap_congr fun x _ => by simp [edgeAt]

theorem mem_edges {tree : Containment} {parent name : String} :
    (parent, name) ∈ tree.edges ↔
      ∃ x ∈ tree.places, x.name = name ∧ x.parent? = some parent := by
  simp only [edges_eq, List.mem_filterMap, Option.map_eq_some_iff, Prod.mk.injEq]
  constructor
  · rintro ⟨x, hx, p, hp, rfl, rfl⟩
    exact ⟨x, hx, rfl, hp⟩
  · rintro ⟨x, hx, rfl, hp⟩
    exact ⟨x, hx, parent, hp, rfl, rfl⟩

/-- A name of a tree is below one name at most, as often as it stands in the tree. -/
theorem map_snd_edges_sublist (tree : Containment) :
    (tree.edges.map Prod.snd).Sublist (tree.places.map (·.name)) := by
  rw [edges_eq]
  induction tree.places with
  | nil => exact List.Sublist.refl _
  | cons x rest ih =>
    rw [List.filterMap_cons]
    cases x.parent? with
    | none => exact ih.cons _
    | some p => exact ih.cons_cons _

/-! ## What stands at a place -/

/-- An entry stands under the names above it; if `inner` is asked for, it has a
  level of its own. -/
def Holds (tree : Containment) (above : List String) (name : String) (inner : Bool) : Prop :=
  ∃ x ∈ tree.places, x.above = above ∧ x.name = name ∧ (inner = true → x.inner = true)

section
variable {above : List String} {name k : String} {inner : Bool} {tree below rest : Containment}

theorem holds_of_mem {x : Place} (hx : x ∈ tree.places) : tree.Holds x.above x.name x.inner :=
  ⟨x, hx, rfl, rfl, id⟩

theorem not_holds_nil : ¬ nil.Holds above k inner := by simp [Holds, places]

theorem holds_leaf : (leaf name rest).Holds above k inner ↔
    (above = [] ∧ k = name ∧ inner = false) ∨ rest.Holds above k inner := by
  constructor
  · rintro ⟨x, hx, rfl, rfl, hi⟩
    rcases List.mem_cons.1 hx with rfl | hx
    · exact .inl ⟨rfl, rfl, Bool.eq_false_iff.2 fun h => Bool.false_ne_true (hi h)⟩
    · exact .inr ⟨x, hx, rfl, rfl, hi⟩
  · rintro (⟨rfl, rfl, rfl⟩ | ⟨x, hx, rfl, rfl, hi⟩)
    · exact ⟨_, List.mem_cons_self, rfl, rfl, id⟩
    · exact ⟨x, List.mem_cons_of_mem _ hx, rfl, rfl, hi⟩

theorem holds_inner : (Containment.inner name below rest).Holds above k inner ↔
    (above = [] ∧ k = name) ∨ (∃ above', above = name :: above' ∧ below.Holds above' k inner) ∨
      rest.Holds above k inner := by
  constructor
  · rintro ⟨x, hx, rfl, rfl, hi⟩
    rcases List.mem_cons.1 hx with rfl | hx
    · exact .inl ⟨rfl, rfl⟩
    · rcases List.mem_append.1 hx with hx | hx
      · obtain ⟨y, hy, rfl⟩ := List.mem_map.1 hx
        exact .inr (.inl ⟨y.above, rfl, y, hy, rfl, rfl, hi⟩)
      · exact .inr (.inr ⟨x, hx, rfl, rfl, hi⟩)
  · rintro (⟨rfl, rfl⟩ | ⟨above', rfl, y, hy, rfl, rfl, hi⟩ | ⟨x, hx, rfl, rfl, hi⟩)
    · exact ⟨_, List.mem_cons_self, rfl, rfl, fun _ => rfl⟩
    · exact ⟨y.under name, List.mem_cons_of_mem _ (List.mem_append_left _
        (List.mem_map_of_mem hy)), rfl, rfl, hi⟩
    · exact ⟨x, List.mem_cons_of_mem _ (List.mem_append_right _ hx), rfl, rfl, hi⟩

/-- The path to an entry starts on the first level. -/
theorem Holds.head_mem (h : tree.Holds above k inner) :
    ∃ n ∈ tree.heads, (above ++ [k]).head? = some n := by
  induction tree with
  | nil => exact absurd h not_holds_nil
  | leaf name rest ih =>
    rcases holds_leaf.1 h with ⟨rfl, rfl, -⟩ | h
    · exact ⟨k, by simp, rfl⟩
    · obtain ⟨n, hn, heq⟩ := ih h
      exact ⟨n, by simp [hn], heq⟩
  | inner name below rest _ ih =>
    rcases holds_inner.1 h with ⟨rfl, rfl⟩ | ⟨above', rfl, -⟩ | h
    · exact ⟨k, by simp, rfl⟩
    · exact ⟨name, by simp, rfl⟩
    · obtain ⟨n, hn, heq⟩ := ih h
      exact ⟨n, by simp [hn], heq⟩

theorem mem_heads : name ∈ tree.heads ↔ tree.Holds [] name false := by
  constructor
  · intro h
    induction tree with
    | nil => exact absurd h List.not_mem_nil
    | leaf n rest ih =>
      rcases List.mem_cons.1 h with rfl | h
      · exact holds_leaf.2 (.inl ⟨rfl, rfl, rfl⟩)
      · exact holds_leaf.2 (.inr (ih h))
    | inner n below rest _ ih =>
      rcases List.mem_cons.1 h with rfl | h
      · exact holds_inner.2 (.inl ⟨rfl, rfl⟩)
      · exact holds_inner.2 (.inr (.inr (ih h)))
  · intro h
    obtain ⟨n, hn, heq⟩ := h.head_mem
    obtain rfl : name = n := by simpa using heq
    exact hn

end

/-! ## Entering a chain -/

/-- An entry in front of a level: a leaf, or with a level of its own. -/
def cons (name : String) (below : Option Containment) (rest : Containment) : Containment :=
  match below with
  | none => .leaf name rest
  | some below => .inner name below rest

/-- The level below a new entry, when more names follow it. -/
def fresh (deeper : List String) : Option Containment :=
  if deeper.isEmpty then none else some (insert deeper .nil)

section
variable (name : String) (deeper : List String)

theorem insert_cons_nil : insert (name :: deeper) .nil = cons name (fresh deeper) .nil := by
  rw [insert, modify, fresh]
  by_cases h : deeper.isEmpty = true <;> simp [h, cons]

theorem insert_cons_leaf (n : String) (rest : Containment) :
    insert (name :: deeper) (.leaf n rest) =
      if n = name then cons n (fresh deeper) rest
      else .leaf n (insert (name :: deeper) rest) := by
  rw [insert, modify, fresh]
  by_cases hn : n = name
  · by_cases h : deeper.isEmpty = true <;> simp [h, hn, cons]
  · simp [hn, insert]

theorem insert_cons_inner (n : String) (below rest : Containment) :
    insert (name :: deeper) (.inner n below rest) =
      if n = name then .inner n (insert deeper below) rest
      else .inner n below (insert (name :: deeper) rest) := by
  rw [insert, modify]
  by_cases hn : n = name <;> simp [hn, insert]

end

/-- An entry of a chain stands under the names before it; if `inner` is asked for,
  something follows it. -/
def OnChain (chain above : List String) (name : String) (inner : Bool) : Prop :=
  ∃ deeper, chain = above ++ name :: deeper ∧ (inner = true → deeper ≠ [])

section
variable {above deeper : List String} {name k : String} {inner : Bool}
  {tree rest : Containment} {below : Option Containment}

theorem not_onChain_nil : ¬ OnChain [] above k inner := by simp [OnChain]

theorem onChain_cons : OnChain (name :: deeper) above k inner ↔
    (above = [] ∧ k = name ∧ (inner = true → deeper ≠ [])) ∨
      ∃ above', above = name :: above' ∧ OnChain deeper above' k inner := by
  unfold OnChain
  cases above with
  | nil =>
    simp only [List.nil_append, List.cons.injEq]
    constructor
    · rintro ⟨_, ⟨rfl, rfl⟩, h⟩
      exact .inl ⟨trivial, rfl, h⟩
    · rintro (⟨-, rfl, h⟩ | ⟨_, h, -⟩)
      · exact ⟨deeper, ⟨rfl, rfl⟩, h⟩
      · cases h
  | cons n above =>
    simp only [List.cons_append, List.cons.injEq]
    constructor
    · rintro ⟨d, ⟨rfl, rfl⟩, h⟩
      exact .inr ⟨above, ⟨rfl, rfl⟩, d, rfl, h⟩
    · rintro (⟨h, -⟩ | ⟨_, ⟨rfl, rfl⟩, d, rfl, h⟩)
      · cases h
      · exact ⟨d, ⟨rfl, rfl⟩, h⟩

theorem holds_cons : (cons name below rest).Holds above k inner ↔
    (above = [] ∧ k = name ∧ (inner = true → below.isSome = true)) ∨
      (∃ above', above = name :: above' ∧ ∃ b ∈ below, b.Holds above' k inner) ∨
        rest.Holds above k inner := by
  cases below with
  | none => simp [cons, holds_leaf]
  | some b => simp [cons, holds_inner]

/-- What stands in front of a level as a new entry is the chain that is entered. -/
theorem holds_cons_fresh
    (ih : ∀ above, (insert deeper .nil).Holds above k inner ↔
      Containment.nil.Holds above k inner ∨ OnChain deeper above k inner) :
    (cons name (fresh deeper) rest).Holds above k inner ↔
      rest.Holds above k inner ∨ OnChain (name :: deeper) above k inner := by
  have hsome : (fresh deeper).isSome = true ↔ deeper ≠ [] := by
    cases deeper <;> simp [fresh]
  have hbelow : ∀ above', (∃ b ∈ fresh deeper, b.Holds above' k inner) ↔
      OnChain deeper above' k inner := by
    intro above'
    cases deeper with
    | nil => simp [fresh, not_onChain_nil]
    | cons d ds => simp [fresh, ih, not_holds_nil]
  simp only [holds_cons, onChain_cons, hsome, hbelow]
  rw [← or_assoc, or_comm]

/-- **Entering a chain adds the places of the chain**, and takes none away. -/
theorem holds_insert (chain : List String) :
    (insert chain tree).Holds above k inner ↔
      tree.Holds above k inner ∨ OnChain chain above k inner := by
  induction chain generalizing tree above with
  | nil => simp [insert, not_onChain_nil]
  | cons name deeper ih =>
    induction tree generalizing above with
    | nil =>
      rw [insert_cons_nil]
      exact holds_cons_fresh fun above => ih
    | leaf n rest ihr =>
      rw [insert_cons_leaf]
      split
      · next hn =>
        subst hn
        rw [holds_cons_fresh fun above => ih, holds_leaf, onChain_cons]
        -- the leaf is the first entry of the chain
        grind
      · rw [holds_leaf, ihr, holds_leaf, or_assoc]
    | inner n below rest _ ihr =>
      rw [insert_cons_inner]
      split
      · next hn =>
        subst hn
        simp only [holds_inner, ih, onChain_cons]
        grind
      · rw [holds_inner, ihr, holds_inner, or_assoc, or_assoc]

theorem holds_insertAll (chainOf : String → List String) (names : List String) :
    (insertAll chainOf tree names).Holds above k inner ↔
      tree.Holds above k inner ∨ ∃ n ∈ names, OnChain (chainOf n) above k inner := by
  unfold insertAll
  induction names generalizing tree with
  | nil => simp
  | cons n rest ih =>
    simp only [List.foldl_cons, ih, holds_insert, List.exists_mem_cons_iff, or_assoc]

end

/-! ## No name twice on one level -/

/-- No level of a tree has a name twice. -/
def Distinct : Containment → Prop
  | .nil => True
  | .leaf name rest => name ∉ rest.heads ∧ rest.Distinct
  | .inner name below rest => name ∉ rest.heads ∧ below.Distinct ∧ rest.Distinct

theorem distinct_nil : Containment.nil.Distinct := trivial

section
variable {tree : Containment}

theorem mem_heads_insert {n name : String} {deeper : List String} :
    n ∈ (insert (name :: deeper) tree).heads ↔ n ∈ tree.heads ∨ n = name := by
  rw [mem_heads, holds_insert, ← mem_heads, onChain_cons]
  simp

theorem distinct_cons_fresh {name : String} {deeper : List String} {rest : Containment}
    (hbelow : (insert deeper .nil).Distinct) (hname : name ∉ rest.heads) (hrest : rest.Distinct) :
    (cons name (fresh deeper) rest).Distinct := by
  cases deeper with
  | nil => exact ⟨hname, hrest⟩
  | cons d ds => exact ⟨hname, hbelow, hrest⟩

/-- A chain is entered without a name coming twice on a level. -/
theorem Distinct.insert (h : tree.Distinct) (chain : List String) :
    (insert chain tree).Distinct := by
  induction chain generalizing tree with
  | nil => exact h
  | cons name deeper ih =>
    induction tree with
    | nil =>
      rw [insert_cons_nil]
      exact distinct_cons_fresh (ih trivial) List.not_mem_nil trivial
    | leaf n rest ihr =>
      obtain ⟨hn, hrest⟩ := h
      rw [insert_cons_leaf]
      split
      · exact distinct_cons_fresh (ih trivial) hn hrest
      · next hne =>
        exact ⟨fun hmem => (mem_heads_insert.1 hmem).elim hn hne, ihr hrest⟩
    | inner n below rest _ ihr =>
      obtain ⟨hn, hbelow, hrest⟩ := h
      rw [insert_cons_inner]
      split
      · exact ⟨hn, ih hbelow, hrest⟩
      · next hne =>
        exact ⟨fun hmem => (mem_heads_insert.1 hmem).elim hn hne, hbelow, ihr hrest⟩

theorem Distinct.insertAll (h : tree.Distinct) (chainOf : String → List String)
    (names : List String) : (insertAll chainOf tree names).Distinct := by
  unfold Containment.insertAll
  induction names generalizing tree with
  | nil => exact h
  | cons n rest ih => exact ih (h.insert (chainOf n))

theorem head_path_mem {x : Place} (hx : x ∈ tree.places) :
    ∃ n ∈ tree.heads, x.path.head? = some n :=
  (holds_of_mem hx).head_mem

/-- No two entries of a tree stand at one place. -/
theorem nodup_paths (h : tree.Distinct) : (tree.places.map Place.path).Nodup := by
  induction tree with
  | nil => exact List.nodup_nil
  | leaf name rest ih =>
    obtain ⟨hn, hrest⟩ := h
    refine List.nodup_cons.2 ⟨fun hmem => ?_, ih hrest⟩
    obtain ⟨x, hx, heq⟩ := List.mem_map.1 hmem
    obtain ⟨n, hnmem, hhead⟩ := head_path_mem hx
    rw [heq] at hhead
    obtain rfl : name = n := Option.some.inj hhead
    exact hn hnmem
  | inner name below rest ihb ihr =>
    obtain ⟨hn, hbelow, hrest⟩ := h
    have hpaths : (Containment.inner name below rest).places.map Place.path =
        [name] :: ((below.places.map Place.path).map (name :: ·) ++ rest.places.map Place.path) := by
      simp [places, Place.path, Function.comp_def, Place.under]
    -- paths of the other entries start with another name
    have hother : ∀ l ∈ rest.places.map Place.path, l.head? ≠ some name := by
      intro l hl heq
      obtain ⟨x, hx, rfl⟩ := List.mem_map.1 hl
      obtain ⟨n, hnmem, hhead⟩ := head_path_mem hx
      obtain rfl : n = name := Option.some.inj (hhead.symm.trans heq)
      exact hn hnmem
    rw [hpaths, List.nodup_cons, List.mem_append, List.nodup_append]
    refine ⟨?_, (ihb hbelow).map (List.cons_injective), ihr hrest, ?_⟩
    · rintro (hl | hl)
      · obtain ⟨l, hl, heq⟩ := List.mem_map.1 hl
        obtain ⟨x, -, rfl⟩ := List.mem_map.1 hl
        exact x.path_ne_nil (List.cons.inj heq).2
      · exact hother _ hl rfl
    · intro l hl l' hl' heq
      obtain ⟨m, -, rfl⟩ := List.mem_map.1 hl
      exact hother l' hl' (heq ▸ rfl)

end

end Containment

end DepGraph
