/-
  DepGraph — names of files.

  In a tree of files no name holds a slash or a null character.  So a file is
  told by the text of the names that lead to it, and every path that is made of
  such names can be asked for.

  * `Path.NoNull`: no part of a path holds a null character;
    `Path.noNull_text_iff` says it of the text of the path.
  * `Workspace.WellNamed`: names hold neither.
  * `Workspace.nodup_filesBelow`: no file is listed twice.
-/
import Mathlib.Data.List.Nodup
import DepGraph.Path.Basic
import DepGraph.Proofs.Text.Segments
import DepGraph.Workspace.Reading

namespace DepGraph

open DepGraph.Text

/-- The null character does not occur in names joined by slashes iff it occurs in
  none of them. -/
theorem null_not_mem_join_iff {parts : List String} :
    '\x00' ∉ (join "/" parts).toList ↔ ∀ p ∈ parts, '\x00' ∉ p.toList :=
  not_mem_join_iff slash_toList (by decide)

/-! ## Paths -/

namespace Path

/-- No part of a path holds a null character. -/
def NoNull (p : Path) : Prop := ∀ part ∈ p.parts, '\x00' ∉ part.toList

theorem noNull_text_iff {p : Path} : '\x00' ∉ p.text.toList ↔ p.NoNull := by
  unfold text NoNull
  split
  · next h =>
    rw [Bool.and_eq_true, List.isEmpty_iff] at h
    simp [h.2]
  · rw [String.toList_append, List.mem_append, String.toList_ofList, List.mem_replicate,
      ← null_not_mem_join_iff]
    simp

theorem noNull_ofText {s : String} (h : '\x00' ∉ s.toList) : (ofText s).NoNull :=
  fun _ hpart => not_mem_of_mem_split slash_toList (by decide) h (List.mem_filter.1 hpart).1

theorem NoNull.append {p q : Path} (hp : p.NoNull) (hq : q.NoNull) : (p ++ q).NoNull := by
  change (p.append q).NoNull
  unfold Path.append
  split
  · intro part hpart
    exact (List.mem_append.1 hpart).elim (hp part) (hq part)
  · exact hq

theorem NoNull.parent {p : Path} (h : p.NoNull) : p.parent.NoNull :=
  fun part hpart => h part (List.dropLast_subset _ hpart)

theorem NoNull.name {p : Path} (h : p.NoNull) : '\x00' ∉ p.name.toList := by
  unfold Path.name
  cases hlast : p.parts.getLast? with
  | none => simp
  | some part => exact h part (List.mem_of_getLast? hlast)

end Path

theorem null_not_mem_directoryOf {file : String} (h : '\x00' ∉ file.toList) :
    '\x00' ∉ (directoryOf file).toList := by
  unfold directoryOf
  dsimp only
  split
  · simp
  · exact Path.noNull_text_iff.2 (Path.noNull_ofText h).parent

/-! ## Trees of files -/

namespace Workspace

/-- No name holds a slash or a null character. -/
structure WellNamed (ws : Workspace) : Prop where
  slash : ∀ place ∈ ws.entries.keys, ∀ name ∈ place, '/' ∉ name.toList
  null : ∀ place ∈ ws.entries.keys, ∀ name ∈ place, '\x00' ∉ name.toList

section
variable {ws : Workspace} {place names : List String} {path : String} {files : List String}
  {found : List (List String)}

theorem below?_eq_some_iff {p : List String} :
    below? place p = some names ↔ place ++ names = p ∧ names ≠ [] := by
  unfold below?
  rw [Option.bind_eq_some_iff]
  constructor
  · rintro ⟨rest, hrest, h⟩
    split at h
    · cases h
    · next hne =>
      obtain rfl : rest = names := Option.some.inj h
      exact ⟨List.isPrefixOf?_eq_some_iff_append_eq.1 hrest, fun he => hne (by simp [he])⟩
  · rintro ⟨happend, hne⟩
    refine ⟨names, List.isPrefixOf?_eq_some_iff_append_eq.2 happend, ?_⟩
    simp [hne]

theorem mem_listing (h : names ∈ ws.listing place) :
    names ≠ [] ∧ place ++ names ∈ ws.entries.keys := by
  rw [listing, List.mem_mergeSort, List.mem_filterMap] at h
  obtain ⟨e, he, hnames⟩ := h
  split at hnames
  · cases hnames
  · obtain ⟨happend, hne⟩ := below?_eq_some_iff.1 hnames
    exact ⟨hne, happend ▸ List.mem_map_of_mem he⟩

theorem nodup_listing (ws : Workspace) (place : List String) : (ws.listing place).Nodup := by
  refine (List.mergeSort_perm _ _).nodup_iff.2 ?_
  rw [List.Nodup, List.pairwise_filterMap]
  -- entries at different places lie below a place by different names
  refine (List.pairwise_map.1 ws.entries.nodup_keys).imp fun hne names hnames names' hnames' => ?_
  split at hnames
  · cases hnames
  split at hnames'
  · cases hnames'
  rintro rfl
  exact hne ((below?_eq_some_iff.1 hnames).1.symm.trans (below?_eq_some_iff.1 hnames').1)

/-- What stands in order is listed as it stands. -/
theorem listing_of_pairwise
    (hfound : (ws.entries.entries.filterMap fun e =>
      if e.2 = .folder then none else below? place e.1) = found)
    (h : found.Pairwise fun a b => ¬ b < a) : ws.listing place = found := by
  rw [listing, hfound]
  exact List.mergeSort_of_pairwise (h.imp fun hlt => by simpa using hlt)

theorem filesBelow_eq (h : ws.filesBelow path = .ok files) :
    files = [] ∨ ∃ place, files = (ws.listing place).map (join "/") := by
  unfold filesBelow at h
  split at h
  · exact .inr ⟨_, (Except.ok.inj h).symm⟩
  · cases h
  · exact .inl (Except.ok.inj h).symm

theorem WellNamed.of_mem_listing (h : ws.WellNamed) (hmem : names ∈ ws.listing place) :
    (∀ name ∈ names, '/' ∉ name.toList) ∧ ∀ name ∈ names, '\x00' ∉ name.toList := by
  have hkey := (mem_listing hmem).2
  exact ⟨fun name hname => h.slash _ hkey name (List.mem_append_right _ hname),
    fun name hname => h.null _ hkey name (List.mem_append_right _ hname)⟩

/-- Files below a folder are told by their names, so none is listed twice. -/
theorem nodup_filesBelow (hw : ws.WellNamed) (h : ws.filesBelow path = .ok files) :
    files.Nodup := by
  rcases filesBelow_eq h with rfl | ⟨place, rfl⟩
  · exact List.nodup_nil
  refine (List.nodup_map_iff_inj_on (nodup_listing ws place)).2 ?_
  intro names hnames names' hnames' heq
  rw [← split_join slash_toList (mem_listing hnames).1 (hw.of_mem_listing hnames).1, heq,
    split_join slash_toList (mem_listing hnames').1 (hw.of_mem_listing hnames').1]

theorem null_not_mem_filesBelow (hw : ws.WellNamed) (h : ws.filesBelow path = .ok files) :
    ∀ file ∈ files, '\x00' ∉ file.toList := by
  rcases filesBelow_eq h with rfl | ⟨place, rfl⟩
  · simp
  · rintro file hfile
    obtain ⟨names, hnames, rfl⟩ := List.mem_map.1 hfile
    exact null_not_mem_join_iff.2 (hw.of_mem_listing hnames).2

end

end Workspace

end DepGraph
