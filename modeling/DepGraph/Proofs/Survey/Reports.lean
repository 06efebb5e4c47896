/-
  DepGraph — what a survey holds of its reports.

  One report more appends to the lists of its file and of the modules it states
  something of; a survey therefore holds what the reports say, one after the
  other.

  * `Report.module?`: the module that a report declares, unless its name is empty.
  * `Resolver.resolve_cases`: a reference means a file of the tree, or is tagged.
  * `targets_paths_add`, `targets_modules_add`: the lists after one report more.
  * `keys_paths_ofReports`: the files of a survey.
  * `targets_paths_ofReports`, `targets_modules_ofReports`: the lists of a survey.
  * `exists_report_of_moduleOf`: a module that a file declares was reported.
-/
import DepGraph.Proofs.Graph.Merge
import DepGraph.Proofs.Survey.Collected

namespace DepGraph

/-! ## References and declarations -/

namespace Resolver

theorem mem_files_of_find {r : Resolver} {raw directory file : String}
    (h : r.find raw directory = some file) : file ∈ r.files := by
  obtain ⟨c, -, hc⟩ := List.exists_of_findSome?_eq_some h
  exact List.mem_of_find?_eq_some hc

theorem mem_files_of_lookup {r : Resolver} {raw directory file : String}
    (h : r.lookup raw directory = some file) : file ∈ r.files := by
  unfold lookup at h
  split at h
  · next hfind => exact mem_files_of_find (hfind.trans h)
  · obtain ⟨name, -, hfind⟩ := Option.bind_eq_some_iff.1 h
    exact mem_files_of_find hfind

/-- A reference means a file of the tree, or is tagged as external. -/
theorem resolve_cases (r : Resolver) (raw directory : String) :
    r.resolve raw directory ∈ r.files ∨ r.resolve raw directory = externalTag ++ raw := by
  unfold resolve
  cases h : r.lookup raw directory with
  | none => exact .inr rfl
  | some file => exact .inl (mem_files_of_lookup h)

end Resolver

/-- The module that a report declares; the empty name declares none. -/
def Report.module? (r : Report) : Option String := r.declared.filter (· ≠ "")

/-- The files that the references of a report mean. -/
def FileReport.resolved (r : Resolver) (f : FileReport) : List String :=
  f.report.references.map fun raw => r.resolve raw f.directory

namespace Survey

open Dependencies

/-! ## One report more -/

section
variable (s : Survey) (r : Resolver) (f : FileReport)

/-- The survey with the report of one more file. -/
def addReport : Survey := s.add r f.file f.directory f.report

theorem moduleOf_addReport :
    (s.addReport r f).moduleOf =
      match f.report.module? with
      | some name => s.moduleOf.insert f.file name
      | none => s.moduleOf := by
  unfold addReport Survey.add Report.module?
  cases f.report.declared with
  | none => rfl
  | some name => by_cases hname : name = "" <;> simp [hname, declare, Option.filter]

/-- A module that a file declares was declared before, or is in the report. -/
theorem moduleOf_addReport_cases {path name : String}
    (h : (s.addReport r f).moduleOf.get? path = some name) :
    s.moduleOf.get? path = some name ∨ f.file = path ∧ f.report.module? = some name := by
  rw [moduleOf_addReport] at h
  cases hf : f.report.module? with
  | none =>
    rw [hf] at h
    exact .inl h
  | some declared =>
    rw [hf] at h
    by_cases hpath : path = f.file
    · subst hpath
      have hname : declared = name := by
        simpa only [OrderedMap.insert, OrderedMap.get?_modify_self, Option.some.injEq] using h
      exact .inr ⟨rfl, congrArg some hname⟩
    · exact .inl ((OrderedMap.get?_modify_of_ne _ hpath _).symm.trans h)

theorem targets_paths_addReport (path : String) :
    (s.addReport r f).paths.targets path =
      s.paths.targets path ++ if f.file = path then f.resolved r else [] :=
  targets_append ..

theorem targets_modules_addReport (name : String) :
    (s.addReport r f).modules.targets name =
      s.modules.targets name ++ f.report.modules.targets name :=
  targets_merge ..

end

/-! ## All reports -/

section
variable (r : Resolver) (separator : String) (reports : List FileReport)

theorem keys_paths_foldl {s : Survey} (hnodup : (reports.map (·.file)).Nodup)
    (hnew : ∀ f ∈ reports, f.file ∉ s.paths.keys) :
    (reports.foldl (fun s f => s.addReport r f) s).paths.keys =
      s.paths.keys ++ reports.map (·.file) := by
  induction reports generalizing s with
  | nil => simp
  | cons f rest ih =>
    obtain ⟨hf, hrest⟩ := List.nodup_cons.1 hnodup
    have hkeys : (s.addReport r f).paths.keys = s.paths.keys ++ [f.file] :=
      (keys_paths_add s r f.file f.directory f.report).trans (if_neg (hnew f List.mem_cons_self))
    rw [List.foldl_cons, ih hrest, hkeys, List.map_cons, List.append_assoc]
    · rfl
    · intro g hg hmem
      rw [hkeys, List.mem_append, List.mem_singleton] at hmem
      rcases hmem with hmem | heq
      · exact hnew g (List.mem_cons_of_mem f hg) hmem
      · exact hf (List.mem_map.2 ⟨g, hg, heq⟩)

/-- The files of a survey of distinct files are these files, in order. -/
theorem keys_paths_ofReports (hnodup : (reports.map (·.file)).Nodup) :
    (ofReports r separator reports).paths.keys = reports.map (·.file) :=
  (keys_paths_foldl r reports (s := empty separator) hnodup fun _ _ => List.not_mem_nil).trans
    (List.nil_append _)

/-- A file depends on what the references of its reports mean. -/
theorem targets_paths_ofReports (path : String) :
    (ofReports r separator reports).paths.targets path =
      reports.flatMap fun f => if f.file = path then f.resolved r else [] :=
  seen_foldl (fun s f => s.addReport r f) (fun s => s.paths.targets path) _
    (fun s f => targets_paths_addReport s r f path) reports (empty separator)

/-- A module depends on what the reports state of it, one after the other. -/
theorem targets_modules_ofReports (name : String) :
    (ofReports r separator reports).modules.targets name =
      reports.flatMap (·.report.modules.targets name) :=
  seen_foldl (fun s f => s.addReport r f) (fun s => s.modules.targets name) _
    (fun s f => targets_modules_addReport s r f name) reports (empty separator)

theorem moduleOf_foldl {s : Survey} {path name : String}
    (h : (reports.foldl (fun s f => s.addReport r f) s).moduleOf.get? path = some name) :
    s.moduleOf.get? path = some name ∨
      ∃ f ∈ reports, f.file = path ∧ f.report.module? = some name := by
  induction reports generalizing s with
  | nil => exact .inl h
  | cons f rest ih =>
    rcases ih h with hs | ⟨g, hg, hfile, hname⟩
    · rcases moduleOf_addReport_cases s r f hs with hs | ⟨hfile, hname⟩
      · exact .inl hs
      · exact .inr ⟨f, List.mem_cons_self, hfile, hname⟩
    · exact .inr ⟨g, List.mem_cons_of_mem f hg, hfile, hname⟩

/-- A module that a file declares is reported for the file. -/
theorem exists_report_of_moduleOf {path name : String}
    (h : (ofReports r separator reports).moduleOf.get? path = some name) :
    ∃ f ∈ reports, f.file = path ∧ f.report.module? = some name := by
  rcases moduleOf_foldl r reports h with h | h
  · cases h
  · exact h

end

end Survey

end DepGraph
