/-
  DepGraph — completing the views twice.

  The second completion carries over what the first one appended, translated
  back.  It changes nothing iff every name that is translated there and back is
  stated already, or is the translation of a name that is.

  * `Survey.TranslatesBack`: this condition, on the survey before.
  * `Survey.derive_derive_iff`: the second completion changes nothing iff it
    holds.
  * `Survey.derive_derive_sharedModule`: two files that declare one module.
-/
import DepGraph.Proofs.Survey.Collected

namespace DepGraph.Survey

open Dependencies

/-- Names that come from one view and are translated to the other one and back
  are among those stated there, or are translations of names stated by the other
  view. -/
structure TranslatesBack (s : Survey) : Prop where
  /-- What any file of a module depends on, said of the file of the module. -/
  paths : ∀ m p, s.pathOf.get? m = some p → ∀ q, s.moduleOf.get? q = some m →
    ∀ x ∈ s.paths.targets q,
      s.toPath s.paths (s.toModule x) ∈ s.paths.targets p ∨
        ∃ d ∈ s.modules.targets m, s.toPath s.paths d = s.toPath s.paths (s.toModule x)
  /-- What a module depends on, said of the module by its file. -/
  modules : ∀ m p, s.pathOf.get? m = some p → ∀ d ∈ s.modules.targets m,
    s.toModule (s.toPath s.paths d) ∈ s.modules.targets m ∨
      ∃ q, s.moduleOf.get? q = some m ∧
        ∃ x ∈ s.paths.targets q, s.toModule x = s.toModule (s.toPath s.paths d)

section
variable {files : List String} {s : Survey}

theorem mem_paths_derive (h : Collected files s) {m p : String} (hp : s.pathOf.get? m = some p)
    {target : String} :
    target ∈ s.derive.paths.targets p ↔ target ∈ s.paths.targets p ∨
      ∃ d ∈ s.modules.targets m, s.toPath s.paths d = target := by
  rw [targets_paths_derive h.filed, mem_addMissing, mem_toPaths]
  refine or_congr_right ⟨?_, fun hd => ⟨m, hp, hd⟩⟩
  -- a file is the file of one module only: the one that it declares
  rintro ⟨m', hp', hd⟩
  obtain rfl : m' = m := Option.some.inj ((h.pathOf m' p hp').symm.trans (h.pathOf m p hp))
  exact hd

theorem mem_modules_derive {m target : String} :
    target ∈ s.derive.modules.targets m ↔ target ∈ s.modules.targets m ∨
      ∃ q, s.moduleOf.get? q = some m ∧ ∃ x ∈ s.paths.targets q, s.toModule x = target := by
  rw [targets_modules_derive, mem_addMissing, mem_toModules]

theorem toPath_derive (h : Collected files s) (name : String) :
    s.derive.toPath s.derive.paths name = s.toPath s.paths name :=
  congrFun (toPath_congr (s := s) (keys_paths_derive h.filed)) name

/-- What the completed modules state of files is in the completed dependencies of
  files, iff names of files translate back. -/
theorem toPaths_derive_iff (h : Collected files s) :
    (∀ p, ∀ target ∈ s.derive.toPaths p, target ∈ s.derive.paths.targets p) ↔
      ∀ m p, s.pathOf.get? m = some p → ∀ q, s.moduleOf.get? q = some m →
        ∀ x ∈ s.paths.targets q, s.toPath s.paths (s.toModule x) ∈ s.derive.paths.targets p := by
  constructor
  · intro hall m p hp q hq x hx
    refine hall p _ (mem_toPaths.2 ⟨m, hp, s.toModule x, ?_, toPath_derive h _⟩)
    exact mem_modules_derive.2 (.inr ⟨q, hq, x, hx, rfl⟩)
  · intro hall p target ht
    obtain ⟨m, hp, d, hd, rfl⟩ := mem_toPaths.1 ht
    rw [toPath_derive h]
    rcases mem_modules_derive.1 hd with hd | ⟨q, hq, x, hx, rfl⟩
    · exact (mem_paths_derive h hp).2 (.inr ⟨d, hd, rfl⟩)
    · exact hall m p hp q hq x hx

/-- What the completed files state of modules is in the completed dependencies of
  modules, iff names of modules translate back. -/
theorem toModules_derive_iff (h : Collected files s) :
    (∀ m, ∀ target ∈ s.derive.toModules m, target ∈ s.derive.modules.targets m) ↔
      ∀ m p, s.pathOf.get? m = some p → ∀ d ∈ s.modules.targets m,
        s.toModule (s.toPath s.paths d) ∈ s.derive.modules.targets m := by
  constructor
  · intro hall m p hp d hd
    refine hall m _ (mem_toModules.2 ⟨p, h.pathOf m p hp, s.toPath s.paths d, ?_, rfl⟩)
    exact (mem_paths_derive h hp).2 (.inr ⟨d, hd, rfl⟩)
  · intro hall m target ht
    obtain ⟨p, hp, x, hx, rfl⟩ := mem_toModules.1 ht
    rw [targets_paths_derive h.filed, mem_addMissing, mem_toPaths] at hx
    rcases hx with hx | ⟨m', hp', d, hd, rfl⟩
    · exact mem_modules_derive.2 (.inr ⟨p, hp, x, hx, rfl⟩)
    · obtain rfl : m' = m := Option.some.inj ((h.pathOf m' p hp').symm.trans hp)
      exact hall m' p hp' d hd

theorem derive_derive_iff_of_collected (h : Collected files s) :
    s.derive.derive = s.derive ↔ s.TranslatesBack := by
  rw [derive_eq_self_iff h.filed.derive, toPaths_derive_iff h, toModules_derive_iff h]
  constructor
  · rintro ⟨hpaths, hmodules⟩
    exact ⟨fun m p hp q hq x hx => (mem_paths_derive h hp).1 (hpaths m p hp q hq x hx),
      fun m p hp d hd => mem_modules_derive.1 (hmodules m p hp d hd)⟩
  · rintro ⟨hpaths, hmodules⟩
    exact ⟨fun m p hp q hq x hx => (mem_paths_derive h hp).2 (hpaths m p hp q hq x hx),
      fun m p hp d hd => mem_modules_derive.2 (hmodules m p hp d hd)⟩

end

/-- **When completing the views twice is completing them once**: for the survey of
  distinct files, iff names translate back. -/
theorem derive_derive_iff (r : Resolver) (separator : String) (reports : List FileReport)
    (h : (reports.map (·.file)).Nodup) :
    (ofReports r separator reports).derive.derive = (ofReports r separator reports).derive ↔
      (ofReports r separator reports).TranslatesBack := by
  obtain ⟨files, hfiles⟩ := collected_ofReports r separator h
  exact derive_derive_iff_of_collected hfiles

/-- How references are read that are names of files. -/
def byName (files : List String) : Resolver := ⟨files, [], false, none⟩

/-- Two files with modules of their own; one module depends on the other one and
  on one that no file declares, and the other file refers to the first. -/
def ownModules : List FileReport :=
  [⟨"w.json", "", ⟨some "web", [], OrderedMap.ofList [("web", ["api", "react"])]⟩⟩,
    ⟨"a.json", "", ⟨some "api", ["w.json", "ext"], ∅⟩⟩]

theorem derive_derive_ownModules :
    (ownModules.map (·.file)).Nodup ∧
      (ofReports (byName ["w.json", "a.json"]) "/" ownModules).derive.derive =
        (ofReports (byName ["w.json", "a.json"]) "/" ownModules).derive ∧
      (ofReports (byName ["w.json", "a.json"]) "/" ownModules).TranslatesBack := by
  have hfiles : (ownModules.map (·.file)).Nodup := by decide
  have htwice : (ofReports (byName ["w.json", "a.json"]) "/" ownModules).derive.derive =
      (ofReports (byName ["w.json", "a.json"]) "/" ownModules).derive := by decide +kernel
  exact ⟨hfiles, htwice, (derive_derive_iff _ _ _ hfiles).1 htwice⟩

/-- Two files that declare one module; only the second refers to a file. -/
def sharedModule : List FileReport :=
  [⟨"a.py", "", ⟨some "pkg", [], ∅⟩⟩, ⟨"b.py", "", ⟨some "pkg", ["c.py"], ∅⟩⟩,
    ⟨"c.py", "", Report.empty⟩]

/-- The module depends on what the second file refers to, and with the second
  completion so does the first file. -/
theorem derive_derive_sharedModule :
    (sharedModule.map (·.file)).Nodup ∧
      let s := ofReports (byName ["a.py", "b.py", "c.py"]) "/" sharedModule
      s.derive.paths.targets "a.py" = [] ∧ s.derive.derive.paths.targets "a.py" = ["c.py"] ∧
        s.derive.derive ≠ s.derive := by
  decide +kernel

end DepGraph.Survey
