/-
  DepGraph — surveys that are collected file by file.

  * `Survey.ofReports`: the survey of the reports of some files.
  * `Survey.Collected`: what holds of a survey whose reports come from distinct
    files; `Survey.Collected.add` is one report more.
  * `Survey.collected_ofReports`: it holds of every such survey.
-/
import Mathlib.Data.List.Basic
import DepGraph.Proofs.Survey.Derive

namespace DepGraph

open Dependencies

/-- A report with the file that it is about, and the directory of the file. -/
structure FileReport where
  file : String
  directory : String
  report : Report

namespace Survey

/-- The survey of the reports of some files, one after the other. -/
def ofReports (r : Resolver) (separator : String) (reports : List FileReport) : Survey :=
  reports.foldl (fun s f => s.add r f.file f.directory f.report) (empty separator)

/-- A survey of distinct files: modules are declared by files of the survey, and
  the file of a module declares it. -/
structure Collected (files : List String) (s : Survey) : Prop where
  keys : ∀ p ∈ files, p ∈ s.paths.keys
  moduleOf : ∀ p m, s.moduleOf.get? p = some m → p ∈ files
  pathOf : ∀ m p, s.pathOf.get? m = some p → s.moduleOf.get? p = some m

section
variable {files : List String} {s : Survey}

theorem Collected.filed (h : Collected files s) : s.Filed where
  pathOf m p hp := h.keys p (h.moduleOf p m (h.pathOf m p hp))
  moduleOf p m hm := h.keys p (h.moduleOf p m hm)

/-- A new file declares a module. -/
theorem Collected.declare (h : Collected files s) {file : String} (hnew : file ∉ files)
    (name : String) (m p : String) (hp : (s.declare file name).pathOf.get? m = some p) :
    (s.declare file name).moduleOf.get? p = some m := by
  -- files that declared a module before are not the new one
  have hold : ∀ m p, s.pathOf.get? m = some p →
      (s.declare file name).moduleOf.get? p = some m := by
    intro m p hp
    have hm := h.pathOf m p hp
    have hne : p ≠ file := fun heq => hnew (heq ▸ h.moduleOf p m hm)
    exact (OrderedMap.get?_modify_of_ne _ hne _).trans hm
  change (s.pathOf.modify name (·.getD file)).get? m = some p at hp
  by_cases hname : m = name
  · subst hname
    rw [OrderedMap.get?_modify_self, Option.some.injEq] at hp
    cases hm : s.pathOf.get? m with
    | none =>
      rw [hm, Option.getD_none] at hp
      subst hp
      exact OrderedMap.get?_modify_self ..
    | some q =>
      rw [hm, Option.getD_some] at hp
      exact hp ▸ hold m q hm
  · rw [OrderedMap.get?_modify_of_ne _ hname] at hp
    exact hold m p hp

theorem moduleOf_declare {file name p m : String}
    (hm : (s.declare file name).moduleOf.get? p = some m) :
    p = file ∨ s.moduleOf.get? p = some m := by
  by_cases hp : p = file
  · exact .inl hp
  · exact .inr ((OrderedMap.get?_modify_of_ne _ hp _).symm.trans hm)

/-- The two name maps after a report: as before, or with one more declaration. -/
theorem nameMaps_add (s : Survey) (r : Resolver) (file directory : String) (report : Report) :
    ((s.add r file directory report).moduleOf = s.moduleOf ∧
        (s.add r file directory report).pathOf = s.pathOf) ∨
      ∃ name, (s.add r file directory report).moduleOf = (s.declare file name).moduleOf ∧
        (s.add r file directory report).pathOf = (s.declare file name).pathOf := by
  unfold Survey.add
  cases report.declared with
  | none => exact .inl ⟨rfl, rfl⟩
  | some name =>
    by_cases hname : name = ""
    · exact .inl (by simp [hname])
    · exact .inr ⟨name, by simp [hname]⟩

theorem keys_paths_add (s : Survey) (r : Resolver) (file directory : String) (report : Report) :
    (s.add r file directory report).paths.keys =
      if file ∈ s.paths.keys then s.paths.keys else s.paths.keys ++ [file] := by
  unfold Survey.add
  exact keys_append ..

/-- The report of a new file. -/
theorem Collected.add (h : Collected files s) (r : Resolver) {file : String} (hnew : file ∉ files)
    (directory : String) (report : Report) :
    Collected (file :: files) (s.add r file directory report) where
  keys p hp := by
    rw [keys_paths_add]
    rcases List.mem_cons.1 hp with rfl | hp
    · split <;> simp [*]
    · split <;> simp [h.keys p hp]
  moduleOf p m hm := by
    rcases nameMaps_add s r file directory report with ⟨hmod, -⟩ | ⟨name, hmod, -⟩
    · exact List.mem_cons_of_mem _ (h.moduleOf p m (hmod ▸ hm))
    · rcases moduleOf_declare (hmod ▸ hm) with rfl | hold
      · exact List.mem_cons_self
      · exact List.mem_cons_of_mem _ (h.moduleOf p m hold)
  pathOf m p hp := by
    rcases nameMaps_add s r file directory report with ⟨hmod, hpath⟩ | ⟨name, hmod, hpath⟩
    · rw [hmod]
      exact h.pathOf m p (hpath ▸ hp)
    · rw [hmod]
      exact h.declare hnew name m p (hpath ▸ hp)

/-- The reports of new files, one after the other. -/
theorem Collected.addAll (r : Resolver) {reports : List FileReport} (h : Collected files s)
    (hnodup : (reports.map (·.file)).Nodup) (hnew : ∀ f ∈ reports, f.file ∉ files) :
    ∃ files', Collected files'
      (reports.foldl (fun s f => s.add r f.file f.directory f.report) s) := by
  induction reports generalizing files s with
  | nil => exact ⟨files, h⟩
  | cons f rest ih =>
    obtain ⟨hf, hrest⟩ := List.nodup_cons.1 hnodup
    refine ih (h.add r (hnew f (by simp)) f.directory f.report) hrest fun f' hf' hmem => ?_
    rcases List.mem_cons.1 hmem with heq | hmem
    · exact hf (List.mem_map.2 ⟨f', hf', heq⟩)
    · exact hnew f' (by simp [hf']) hmem

end

theorem collected_empty (separator : String) : Collected [] (empty separator) where
  keys _ hp := absurd hp List.not_mem_nil
  moduleOf _ _ hm := by cases hm
  pathOf _ _ hp := by cases hp

/-- Reports of distinct files make a survey of these files. -/
theorem collected_ofReports (r : Resolver) (separator : String) {reports : List FileReport}
    (h : (reports.map (·.file)).Nodup) :
    ∃ files, Collected files (ofReports r separator reports) :=
  (collected_empty separator).addAll r h fun _ _ => List.not_mem_nil

end Survey

end DepGraph
