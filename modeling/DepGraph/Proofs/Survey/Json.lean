/-
  DepGraph — surveys survive their stored form.

  The stored form of a survey holds strings, lists and objects only, at most three
  within each other, and its keys are distinct.  So checking its shape gives every
  part of the survey back, in its order.

  * `Checked.all_map`: checking a list whose values pass.
  * `checkList_map`, `checkMap_entries`: lists and maps of values that pass.
  * `Survey.ofJson_toJson`: the stored form of a survey is read as this survey.
  * `Survey.numberFree_toJson`, `Survey.nesting_toJson`: its shape.
-/
import Mathlib.Data.List.Nodup
import DepGraph.Proofs.Json.Roundtrip
import DepGraph.Survey.Json

namespace DepGraph

namespace Json

variable {α β : Type}

namespace Checked

theorem all_map {check : β → Checked α} {f : β → α} {l : List β}
    (h : ∀ b ∈ l, check b = .ok (f b)) : all (l.map check) = .ok (l.map f) := by
  induction l with
  | nil => rfl
  | cons b rest ih =>
    rw [List.forall_mem_cons] at h
    rw [List.map_cons, all, h.1, ih h.2]
    rfl

theorem under_ok (key : String) (a : α) : under key (.ok a : Checked α) = .ok a := rfl

end Checked

/-- A member of an object whose keys are distinct. -/
theorem member?_eq_some {members : List (String × Json)} (h : (members.map Prod.fst).Nodup)
    {key : String} {v : Json} (hmem : (key, v) ∈ members) :
    member? key (.object members) = some v := by
  cases hfind : members.reverse.find? (·.1 == key) with
  | none =>
    have hno := List.find?_eq_none.1 hfind _ (List.mem_reverse.2 hmem)
    simp at hno
  | some e =>
    have he : e ∈ members := List.mem_reverse.1 (List.mem_of_find?_eq_some hfind)
    have hkey : e.1 = key := by simpa using List.find?_some hfind
    have heq : e = (key, v) := List.inj_on_of_nodup_map h he hmem hkey
    rw [member?, hfind, heq, Option.map_some]

/-- A list of values that pass. -/
theorem checkList_map {check : Json → Checked α} {f : α → Json}
    (h : ∀ a, check (f a) = .ok a) (l : List α) :
    checkList check (.array (l.map f)) = .ok l := by
  rw [checkList, List.zipIdx_map, List.map_map, Checked.all_map (f := Prod.fst)]
  · rw [List.zipIdx_map_fst]
  · intro e _
    simp [h, Checked.under_ok]

/-- A map of values that pass. -/
theorem checkMap_entries {check : Json → Checked α} {f : α → Json}
    (h : ∀ a, check (f a) = .ok a) (m : OrderedMap String α) :
    checkMap check (.object (m.entries.map fun e => (e.1, f e.2))) = .ok m := by
  rw [checkMap, List.map_map, Checked.all_map (f := id)]
  · rw [List.map_id, Except.map, OrderedMap.ofList_entries]
  · intro e _
    simp [h, Checked.under_ok, Except.map]

end Json

open DepGraph.Json

theorem checkMap_namesToJson (names : OrderedMap String String) :
    checkMap checkString (namesToJson names) = .ok names :=
  checkMap_entries (f := .string) (fun _ => rfl) names

theorem checkMap_dependenciesToJson (deps : Dependencies) :
    checkMap (checkList checkString) (dependenciesToJson deps) = .ok deps :=
  checkMap_entries (f := .ofStrings) (checkList_map fun _ => rfl) deps

/-! ## The shape of stored forms -/

theorem numberFree_ofStrings (names : List String) : NumberFree (.ofStrings names) := by
  refine .array fun v hv => ?_
  obtain ⟨s, -, rfl⟩ := List.mem_map.1 hv
  exact .string s

theorem numberFree_namesToJson (names : OrderedMap String String) :
    NumberFree (namesToJson names) := by
  refine .object fun m hm => ?_
  obtain ⟨e, -, rfl⟩ := List.mem_map.1 hm
  exact .string e.2

theorem numberFree_dependenciesToJson (deps : Dependencies) :
    NumberFree (dependenciesToJson deps) := by
  refine .object fun m hm => ?_
  obtain ⟨e, -, rfl⟩ := List.mem_map.1 hm
  exact numberFree_ofStrings e.2

namespace Json

section
variable {n : Nat}

theorem itemsNesting_le {items : List Json} (h : ∀ v ∈ items, v.nesting ≤ n) :
    itemsNesting items ≤ n := by
  induction items with
  | nil => exact Nat.zero_le n
  | cons v rest ih =>
    rw [List.forall_mem_cons] at h
    exact Nat.max_le.2 ⟨h.1, ih h.2⟩

theorem membersNesting_le {members : List (String × Json)} (h : ∀ m ∈ members, m.2.nesting ≤ n) :
    membersNesting members ≤ n := by
  induction members with
  | nil => exact Nat.zero_le n
  | cons m rest ih =>
    rw [List.forall_mem_cons] at h
    exact Nat.max_le.2 ⟨h.1, ih h.2⟩

theorem nesting_array_le {items : List Json} (h : ∀ v ∈ items, v.nesting ≤ n) :
    (Json.array items).nesting ≤ n + 1 := by
  cases items with
  | nil => exact Nat.zero_le _
  | cons v rest =>
    have hmax : max v.nesting (itemsNesting rest) ≤ n := itemsNesting_le h
    rw [nesting]
    omega

theorem nesting_object_le {members : List (String × Json)} (h : ∀ m ∈ members, m.2.nesting ≤ n) :
    (Json.object members).nesting ≤ n + 1 := by
  cases members with
  | nil => exact Nat.zero_le _
  | cons m rest =>
    have hmax : max m.2.nesting (membersNesting rest) ≤ n := membersNesting_le h
    rw [nesting]
    omega

end

end Json

theorem nesting_ofStrings (names : List String) : (Json.ofStrings names).nesting ≤ 1 := by
  refine nesting_array_le fun v hv => ?_
  obtain ⟨s, -, rfl⟩ := List.mem_map.1 hv
  exact Nat.le_refl 0

theorem nesting_namesToJson (names : OrderedMap String String) :
    (namesToJson names).nesting ≤ 1 := by
  refine nesting_object_le fun m hm => ?_
  obtain ⟨e, -, rfl⟩ := List.mem_map.1 hm
  exact Nat.le_refl 0

theorem nesting_dependenciesToJson (deps : Dependencies) :
    (dependenciesToJson deps).nesting ≤ 2 := by
  refine nesting_object_le fun m hm => ?_
  obtain ⟨e, -, rfl⟩ := List.mem_map.1 hm
  exact nesting_ofStrings e.2

namespace Survey

theorem part_of_member {v w : Json} {key : String} {α : Type} {absent a : α}
    {check : Json → Checked α} (h : v.member? key = some w) (hcheck : check w = .ok a) :
    part v key absent check = .ok a := by
  simp only [part, h, hcheck, Checked.under_ok]

/-- The stored form of a survey is read as this survey. -/
theorem ofJson_toJson (s : Survey) : ofJson s.toJson = .ok s := by
  -- the five keys are distinct
  have hkeys : ["path_to_module", "module_to_path", "path_dependencies", "module_dependencies",
    "module_separator"].Nodup := by decide
  have hmember : ∀ key v, (key, v) ∈ [("path_to_module", namesToJson s.moduleOf),
      ("module_to_path", namesToJson s.pathOf), ("path_dependencies", dependenciesToJson s.paths),
      ("module_dependencies", dependenciesToJson s.modules),
      ("module_separator", .string s.separator)] → s.toJson.member? key = some v := by
    intro key v hmem
    refine member?_eq_some ?_ hmem
    exact hkeys
  have hmoduleOf : part s.toJson "path_to_module" ∅ (checkMap checkString) = .ok s.moduleOf :=
    part_of_member (hmember _ (namesToJson s.moduleOf) (by simp)) (checkMap_namesToJson _)
  have hpathOf : part s.toJson "module_to_path" ∅ (checkMap checkString) = .ok s.pathOf :=
    part_of_member (hmember _ (namesToJson s.pathOf) (by simp)) (checkMap_namesToJson _)
  have hpaths : part s.toJson "path_dependencies" ∅ (checkMap (checkList checkString)) =
      .ok s.paths :=
    part_of_member (hmember _ (dependenciesToJson s.paths) (by simp))
      (checkMap_dependenciesToJson _)
  have hmodules : part s.toJson "module_dependencies" ∅ (checkMap (checkList checkString)) =
      .ok s.modules :=
    part_of_member (hmember _ (dependenciesToJson s.modules) (by simp))
      (checkMap_dependenciesToJson _)
  have hseparator : part s.toJson "module_separator" "/" checkString = .ok s.separator :=
    part_of_member (hmember _ (.string s.separator) (by simp)) rfl
  have hparts : ofJson s.toJson = Checked.map5 Survey.mk (.ok s.moduleOf) (.ok s.pathOf)
      (.ok s.paths) (.ok s.modules) (.ok s.separator) := by
    rw [← hmoduleOf, ← hpathOf, ← hpaths, ← hmodules, ← hseparator]
    rfl
  rw [hparts]
  rfl

theorem numberFree_toJson (s : Survey) : NumberFree s.toJson := by
  refine .object ?_
  simp only [List.forall_mem_cons]
  exact ⟨numberFree_namesToJson _, numberFree_namesToJson _, numberFree_dependenciesToJson _,
    numberFree_dependenciesToJson _, .string _, fun _ hm => absurd hm List.not_mem_nil⟩

theorem nesting_toJson (s : Survey) : s.toJson.nesting ≤ 3 := by
  have hnames : ∀ names, (namesToJson names).nesting ≤ 2 := fun names =>
    Nat.le_succ_of_le (nesting_namesToJson names)
  refine nesting_object_le ?_
  simp only [List.forall_mem_cons]
  exact ⟨hnames _, hnames _, nesting_dependenciesToJson _, nesting_dependenciesToJson _,
    Nat.zero_le 2, fun _ hm => absurd hm List.not_mem_nil⟩

end Survey

end DepGraph
