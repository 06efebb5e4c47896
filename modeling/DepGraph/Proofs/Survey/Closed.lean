/-
  DepGraph — surveys that name only files and what is external.

  A reference means a file of the tree or is tagged; a module name stands for
  the file that declares it, is a file, is tagged already, or is tagged then.  So
  what a file depends on is a file of the survey or carries a tag, before and
  after the views are completed.

  * `Survey.Closed`: this condition.
  * `Survey.closed_ofReports`: it holds of collected reports.
  * `Survey.Closed.derive`: it is kept when the views are completed.
-/
import DepGraph.Proofs.Graph.Name
import DepGraph.Proofs.Survey.Reports

namespace DepGraph.Survey

open Dependencies

/-- Files depend on files of the survey and on what carries a tag. -/
def Closed (s : Survey) : Prop :=
  ∀ path, ∀ target ∈ s.paths.targets path, target ∈ s.paths.keys ∨ isExternal target = true

/-- A name stands for a file of the survey, or for a tagged name. -/
theorem toPath_cases {s : Survey} (h : s.Filed) (name : String) :
    s.toPath s.paths name ∈ s.paths.keys ∨ isExternal (s.toPath s.paths name) = true := by
  unfold toPath
  cases hp : s.pathOf.get? name with
  | some path => exact .inl (h.pathOf name path hp)
  | none =>
    by_cases hext : isExternal name = true
    · exact .inr (by simp [hext])
    · by_cases hkey : s.paths.contains name = true
      · exact .inl (by simpa [hkey] using OrderedMap.contains_iff_mem.1 hkey)
      · exact .inr (by simpa [hext, hkey] using isExternal_externalModuleTag name)

theorem Closed.derive {s : Survey} (h : s.Closed) (hf : s.Filed) : s.derive.Closed := by
  intro path target ht
  rw [keys_paths_derive hf]
  rw [targets_paths_derive hf, mem_addMissing, mem_toPaths] at ht
  rcases ht with ht | ⟨_, -, d, -, rfl⟩
  · exact h path target ht
  · exact toPath_cases hf d

/-- Collected reports name only their files and what carries a tag, if references
  mean these files. -/
theorem closed_ofReports {r : Resolver} (separator : String) {reports : List FileReport}
    (hnodup : (reports.map (·.file)).Nodup) (hfiles : r.files ⊆ reports.map (·.file)) :
    (ofReports r separator reports).Closed := by
  intro path target ht
  rw [targets_paths_ofReports, List.mem_flatMap] at ht
  obtain ⟨f, -, ht⟩ := ht
  split at ht
  · obtain ⟨raw, -, rfl⟩ := List.mem_map.1 ht
    rw [keys_paths_ofReports _ _ _ hnodup]
    refine (r.resolve_cases raw f.directory).imp (fun h => hfiles h) fun h => ?_
    rw [h]
    exact isExternal_externalTag raw
  · exact absurd ht List.not_mem_nil

end DepGraph.Survey
