/-
  DepGraph — what completing the views appends.

  Each view is completed by carrying the lists of the other one over: under the
  name that stands for an entity, the names that stand for its targets.  The
  names that stand for others are the same before and after, so the two views do
  not influence each other.

  * `carry`: one list carried over; `targets_foldl_carry` and `keys_foldl_carry`
    say what all of them append.
  * `Survey.Filed`: every file of the two name maps has dependencies.
  * `Survey.toPaths`, `Survey.toModules`: what the other view states.
  * `Survey.targets_paths_derive`, `Survey.targets_modules_derive`: the lists of
    a completed survey.
  * `Survey.derive_eq_self_iff`: when a survey is complete.
-/
import Mathlib.Data.List.Basic
import DepGraph.Survey

namespace DepGraph

open Dependencies

/-- Carry a list of targets over to a map: `f` is the name under which it goes,
  `g` the name of a target. -/
def carry (f : String → Option String) (g : String → String) (deps : Dependencies)
    (e : String × List String) : Dependencies :=
  match f e.1 with
  | some name => if e.2.isEmpty then deps else deps.appendMissing name (e.2.map g)
  | none => deps

/-- What a list of targets appends under a name. -/
def carried (f : String → Option String) (g : String → String) (name : String)
    (e : String × List String) : List String :=
  if f e.1 = some name then e.2.map g else []

/-- The name under which a list of targets goes, unless it is empty. -/
def carriedKey (f : String → Option String) (e : String × List String) : Option String :=
  if e.2.isEmpty then none else f e.1

section
variable {f : String → Option String} {g : String → String}

/-- What the lists of a map append under a name. -/
theorem mem_carried {deps : Dependencies} {name target : String} :
    target ∈ deps.entries.flatMap (carried f g name) ↔
      ∃ k, f k = some name ∧ ∃ t ∈ targets deps k, g t = target := by
  simp only [List.mem_flatMap, carried, mem_targets, OrderedMap.get?_eq_some_iff]
  constructor
  · rintro ⟨⟨k, l⟩, he, ht⟩
    split at ht
    · next hk =>
      obtain ⟨t, htl, rfl⟩ := List.mem_map.1 ht
      exact ⟨k, hk, t, ⟨l, he, htl⟩, rfl⟩
    · exact absurd ht List.not_mem_nil
  · rintro ⟨k, hk, t, ⟨l, he, htl⟩, rfl⟩
    refine ⟨(k, l), he, ?_⟩
    rw [if_pos hk]
    exact List.mem_map_of_mem htl

theorem targets_carry (deps : Dependencies) (e : String × List String) (name : String) :
    targets (carry f g deps e) name = addMissing (targets deps name) (carried f g name e) := by
  unfold carry carried
  cases f e.1 with
  | none => rfl
  | some other =>
    cases he : e.2 with
    | nil => simp [addMissing]
    | cons t rest => simp [targets_appendMissing]

theorem keys_carry (deps : Dependencies) (e : String × List String) :
    (carry f g deps e).keys = addMissing deps.keys (carriedKey f e).toList := by
  unfold carry carriedKey
  cases f e.1 with
  | none => simp [addMissing]
  | some name =>
    cases e.2.isEmpty with
    | true => rfl
    | false => exact keys_appendMissing deps name _

theorem of_mem_carriedKey {e : String × List String} {name : String}
    (h : name ∈ carriedKey f e) : f e.1 = some name := by
  unfold carriedKey at h
  split at h
  · cases h
  · exact h

/-- No key is new if the name is one already. -/
theorem keys_carry_eq_self {deps : Dependencies} {e : String × List String}
    (h : ∀ name, f e.1 = some name → name ∈ deps.keys) : (carry f g deps e).keys = deps.keys := by
  rw [keys_carry, addMissing_eq_self_iff]
  exact fun name hname => h name (of_mem_carriedKey (Option.mem_toList.1 hname))

/-- All lists carried over append, under each name, what they state there. -/
theorem targets_foldl_carry (l : List (String × List String)) (deps : Dependencies)
    (name : String) :
    targets (l.foldl (carry f g) deps) name =
      addMissing (targets deps name) (l.flatMap (carried f g name)) := by
  induction l generalizing deps with
  | nil => rfl
  | cons e rest ih =>
    rw [List.foldl_cons, ih, targets_carry, List.flatMap_cons, addMissing_append]

/-- All lists carried over enter, in order, the names under which they go. -/
theorem keys_foldl_carry (l : List (String × List String)) (deps : Dependencies) :
    (l.foldl (carry f g) deps).keys = addMissing deps.keys (l.filterMap (carriedKey f)) := by
  induction l generalizing deps with
  | nil => rfl
  | cons e rest ih =>
    have hnames : (e :: rest).filterMap (carriedKey f) =
        (carriedKey f e).toList ++ rest.filterMap (carriedKey f) := by
      cases h : carriedKey f e <;> simp [h]
    rw [List.foldl_cons, ih, keys_carry, hnames, addMissing_append]

theorem keys_foldl_carry_eq_self {l : List (String × List String)} {deps : Dependencies}
    (h : ∀ e ∈ l, ∀ name, f e.1 = some name → name ∈ deps.keys) :
    (l.foldl (carry f g) deps).keys = deps.keys := by
  rw [keys_foldl_carry, addMissing_eq_self_iff]
  intro name hname
  obtain ⟨e, he, hkey⟩ := List.mem_filterMap.1 hname
  exact h e he name (of_mem_carriedKey hkey)

/-- Lists whose names are all there already change nothing. -/
theorem foldl_carry_eq_self {l : List (String × List String)} {deps : Dependencies}
    (h : ∀ name, ∀ target ∈ l.flatMap (carried f g name), target ∈ targets deps name) :
    l.foldl (carry f g) deps = deps := by
  induction l with
  | nil => rfl
  | cons e rest ih =>
    have hself : carry f g deps e = deps := by
      unfold carry
      split
      · next name hname =>
        split
        · rfl
        · next hne =>
          have hall : ∀ target ∈ e.2.map g, target ∈ targets deps name := by
            intro target ht
            refine h name target (List.mem_flatMap.2 ⟨e, by simp, ?_⟩)
            rwa [carried, if_pos hname]
          obtain ⟨t, ht⟩ := List.exists_mem_of_ne_nil e.2 fun hnil => hne (by simp [hnil])
          have hk := mem_keys_of_mem_targets (hall (g t) (List.mem_map_of_mem ht))
          exact appendMissing_eq_self hk hall
      · rfl
    rw [List.foldl_cons, hself]
    exact ih fun name target ht => h name target (by
      rw [List.flatMap_cons]
      exact List.mem_append_right _ ht)

end

namespace Survey

/-- The files of the two name maps are files with dependencies. -/
structure Filed (s : Survey) : Prop where
  pathOf : ∀ m p, s.pathOf.get? m = some p → p ∈ s.paths.keys
  moduleOf : ∀ p m, s.moduleOf.get? p = some m → p ∈ s.paths.keys

/-- What the dependencies of modules state of a file. -/
def toPaths (s : Survey) (path : String) : List String :=
  s.modules.entries.flatMap (carried s.pathOf.get? (s.toPath s.paths) path)

/-- What the dependencies of files state of a module. -/
def toModules (s : Survey) (name : String) : List String :=
  s.paths.entries.flatMap (carried s.moduleOf.get? s.toModule name)

section
variable {s : Survey}

theorem mem_toPaths {path target : String} :
    target ∈ s.toPaths path ↔ ∃ m, s.pathOf.get? m = some path ∧
      ∃ d ∈ s.modules.targets m, s.toPath s.paths d = target := mem_carried

theorem mem_toModules {name target : String} :
    target ∈ s.toModules name ↔ ∃ p, s.moduleOf.get? p = some name ∧
      ∃ x ∈ s.paths.targets p, s.toModule x = target := mem_carried

/-! ## The completed views -/

theorem toPath_congr {paths paths' : Dependencies} (h : paths.keys = paths'.keys) :
    s.toPath paths = s.toPath paths' := by
  funext name
  have hc : paths.contains name = paths'.contains name := by
    rw [Bool.eq_iff_iff, OrderedMap.contains_iff_mem, OrderedMap.contains_iff_mem, h]
  simp only [toPath, hc]

theorem derivePath_eq (paths : Dependencies) (e : String × List String) :
    s.derivePath paths e = carry s.pathOf.get? (s.toPath paths) paths e := rfl

/-- Files of the survey keep their place, so a name stands for the same file
  throughout. -/
theorem foldl_derivePath (h : s.Filed) (l : List (String × List String)) {paths : Dependencies}
    (hkeys : paths.keys = s.paths.keys) :
    l.foldl s.derivePath paths = l.foldl (carry s.pathOf.get? (s.toPath s.paths)) paths := by
  induction l generalizing paths with
  | nil => rfl
  | cons e rest ih =>
    have hstep : s.derivePath paths e = carry s.pathOf.get? (s.toPath s.paths) paths e := by
      rw [derivePath_eq, toPath_congr hkeys]
    rw [List.foldl_cons, List.foldl_cons, hstep]
    refine ih ((keys_carry_eq_self fun name hname => ?_).trans hkeys)
    rw [hkeys]
    exact h.pathOf _ _ hname

theorem paths_derive (h : s.Filed) :
    s.derive.paths = s.modules.entries.foldl (carry s.pathOf.get? (s.toPath s.paths)) s.paths :=
  foldl_derivePath h _ rfl

theorem modules_derive (s : Survey) :
    s.derive.modules = s.paths.entries.foldl (carry s.moduleOf.get? s.toModule) s.modules := rfl

theorem keys_paths_derive (h : s.Filed) : s.derive.paths.keys = s.paths.keys := by
  rw [paths_derive h]
  exact keys_foldl_carry_eq_self fun e _ name hname => h.pathOf _ _ hname

/-- A file gets what the dependencies of its modules state of it. -/
theorem targets_paths_derive (h : s.Filed) (path : String) :
    s.derive.paths.targets path = addMissing (s.paths.targets path) (s.toPaths path) := by
  rw [paths_derive h, targets_foldl_carry]
  rfl

/-- A module gets what the dependencies of its files state of it. -/
theorem targets_modules_derive (s : Survey) (name : String) :
    s.derive.modules.targets name = addMissing (s.modules.targets name) (s.toModules name) := by
  rw [modules_derive, targets_foldl_carry]
  rfl

theorem Filed.derive (h : s.Filed) : s.derive.Filed where
  pathOf m p hp := by rw [keys_paths_derive h]; exact h.pathOf m p hp
  moduleOf p m hm := by rw [keys_paths_derive h]; exact h.moduleOf p m hm

/-- A survey is complete iff each view has what the other one states. -/
theorem derive_eq_self_iff (h : s.Filed) :
    s.derive = s ↔ (∀ path, ∀ target ∈ s.toPaths path, target ∈ s.paths.targets path) ∧
      ∀ name, ∀ target ∈ s.toModules name, target ∈ s.modules.targets name := by
  constructor
  · intro hself
    refine ⟨fun path => ?_, fun name => ?_⟩
    · have := targets_paths_derive h path
      rw [hself] at this
      exact addMissing_eq_self_iff.1 this.symm
    · have := targets_modules_derive s name
      rw [hself] at this
      exact addMissing_eq_self_iff.1 this.symm
  · rintro ⟨hpaths, hmodules⟩
    have hp : s.derive.paths = s.paths := (paths_derive h).trans (foldl_carry_eq_self hpaths)
    have hm : s.derive.modules = s.modules := foldl_carry_eq_self hmodules
    calc s.derive = { s with paths := s.derive.paths, modules := s.derive.modules } := rfl
      _ = s := by rw [hp, hm]

end

end Survey

end DepGraph
