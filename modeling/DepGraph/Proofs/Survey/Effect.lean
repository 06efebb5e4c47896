/-
  DepGraph — exactly what completing the views changes.

  The completed lists start with what they held.  After that come the names that the
  other view stated before either was completed, without those that stood in the list
  already, each once and in the order of that view.  A file has a list already, and a
  module of which something is stated now gets one.  Nothing else changes, so a survey
  of which this holds is the completed one.

  * `missing`: the names that a list lacks; `addMissing_eq`.
  * `Survey.Completes`: one survey completes another one.
  * `Survey.derive_eq_iff`: the completed survey is the only one that does.
-/
import DepGraph.Proofs.Graph.Merge
import DepGraph.Proofs.Survey.Idempotence

namespace DepGraph

namespace Dependencies

/-- The names that a list lacks, each once, in the order in which they first come. -/
def missing (l more : List String) : List String := (more.filter (· ∉ l)).eraseDups

theorem addMissing_eq (l more : List String) : addMissing l more = l ++ missing l more := by
  induction more generalizing l with
  | nil => simp [addMissing, missing]
  | cons name rest ih =>
    change addMissing (if name ∈ l then l else l ++ [name]) rest = _
    rw [ih]
    by_cases hname : name ∈ l
    · simp [missing, hname]
    · -- what the longer list lacks is what the list lacks, without the name
      have hfilter : rest.filter (· ∉ l ++ [name]) = (rest.filter (· ∉ l)).filter (!· == name) := by
        rw [List.filter_filter]
        refine List.filter_congr fun x _ => ?_
        by_cases hx : x = name <;> simp [hx]
      have hmissing : missing l (name :: rest) = name :: missing (l ++ [name]) rest := by
        rw [missing, List.filter_cons_of_pos (by simpa using hname), List.eraseDups_cons, missing,
          hfilter]
      rw [if_neg hname, hmissing, List.append_assoc, List.singleton_append]

end Dependencies

namespace Survey

open Dependencies

/-- The modules of the files that depend on something, in the order of the files. -/
def statedModules (s : Survey) : List String :=
  s.paths.entries.filterMap (carriedKey s.moduleOf.get?)

/-- A survey completes another one: in each view, what the other view stated and the
  view lacks is appended. -/
structure Completes (s t : Survey) : Prop where
  moduleOf : t.moduleOf = s.moduleOf
  pathOf : t.pathOf = s.pathOf
  separator : t.separator = s.separator
  keys_paths : t.paths.keys = s.paths.keys
  keys_modules : t.modules.keys = s.modules.keys ++ missing s.modules.keys s.statedModules
  paths : ∀ path,
    t.paths.targets path = s.paths.targets path ++ missing (s.paths.targets path) (s.toPaths path)
  modules : ∀ name, t.modules.targets name =
    s.modules.targets name ++ missing (s.modules.targets name) (s.toModules name)

theorem completes_derive {s : Survey} (h : s.Filed) : s.Completes s.derive where
  moduleOf := rfl
  pathOf := rfl
  separator := rfl
  keys_paths := keys_paths_derive h
  keys_modules := by
    rw [modules_derive, keys_foldl_carry, addMissing_eq]
    rfl
  paths path := by rw [targets_paths_derive h, addMissing_eq]
  modules name := by rw [targets_modules_derive, addMissing_eq]

/-- A survey is completed in one way only. -/
theorem Completes.unique {s t t' : Survey} (h : s.Completes t) (h' : s.Completes t') : t = t' := by
  have hpaths : t.paths = t'.paths :=
    eq_of_keys_of_targets (h.keys_paths.trans h'.keys_paths.symm) fun path =>
      (h.paths path).trans (h'.paths path).symm
  have hmodules : t.modules = t'.modules :=
    eq_of_keys_of_targets (h.keys_modules.trans h'.keys_modules.symm) fun name =>
      (h.modules name).trans (h'.modules name).symm
  obtain ⟨moduleOf, pathOf, paths, modules, separator⟩ := t
  obtain ⟨moduleOf', pathOf', paths', modules', separator'⟩ := t'
  have hmoduleOf : moduleOf = moduleOf' := h.moduleOf.trans h'.moduleOf.symm
  have hpathOf : pathOf = pathOf' := h.pathOf.trans h'.pathOf.symm
  have hseparator : separator = separator' := h.separator.trans h'.separator.symm
  rw [Survey.mk.injEq]
  exact ⟨hmoduleOf, hpathOf, hpaths, hmodules, hseparator⟩

/-- **What completing the views changes**: in each view, and only there, what the other
  view stated before and the view lacks is appended. -/
theorem derive_eq_iff {s : Survey} (h : s.Filed) (t : Survey) : s.derive = t ↔ s.Completes t :=
  ⟨fun heq => heq ▸ completes_derive h, (completes_derive h).unique⟩

/-- Two files of one module, which depend on the same file, and a file whose module is
  stated to depend on nothing. -/
def sharedFiles : List FileReport :=
  [⟨"a.py", "", ⟨some "pkg", ["c.py"], OrderedMap.ofList [("pkg", ["core", "react", "react"])]⟩⟩,
    ⟨"b.py", "", ⟨some "pkg", ["c.py", "ext"], ∅⟩⟩, ⟨"c.py", "", ⟨some "core", ["b.py"], ∅⟩⟩]

theorem derive_eq_sharedFiles :
    let s := ofReports (byName ["a.py", "b.py", "c.py"]) "/" sharedFiles
    s.Filed ∧ s.Completes s.derive ∧
      s.derive.paths.entries = [("a.py", ["c.py", externalModuleTag ++ "react"]),
        ("b.py", ["c.py", externalTag ++ "ext"]), ("c.py", ["b.py"])] ∧
      s.derive.modules.entries = [("pkg", ["core", "react", "react", externalTag ++ "ext"]),
        ("core", ["pkg"])] := by
  intro s
  have hnodup : (sharedFiles.map (·.file)).Nodup := by decide
  obtain ⟨files, hfiles⟩ := collected_ofReports (byName ["a.py", "b.py", "c.py"]) "/" hnodup
  have hfiled : s.Filed := hfiles.filed
  have hpaths : s.derive.paths.entries = [("a.py", ["c.py", externalModuleTag ++ "react"]),
      ("b.py", ["c.py", externalTag ++ "ext"]), ("c.py", ["b.py"])] := by decide +kernel
  have hmodules : s.derive.modules.entries =
      [("pkg", ["core", "react", "react", externalTag ++ "ext"]), ("core", ["pkg"])] := by
    decide +kernel
  exact ⟨hfiled, (derive_eq_iff hfiled s.derive).1 rfl, hpaths, hmodules⟩

end Survey

end DepGraph
