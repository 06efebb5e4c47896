/-
  DepGraph — the maps of a survey and the reports that it holds.

  Each report of a new file is entered in the four maps by a rule of its own: the file
  gets an entry in the dependencies of files, the lists of modules grow, the module
  that the file declares is written, and the first file of a module stays.  So the maps
  can be told from the reports, and the file of a module declares it.

  * `Survey.Records`: the maps, told from the reports.
  * `Survey.Records.add`: one report more.
  * `Survey.Records.get?_moduleOf`, `Survey.Records.mem_keys_pathOf`,
    `Survey.Records.moduleOf_of_pathOf`: the two name maps.
  * `Survey.records_ofReports`: the maps of a survey of distinct files.
-/
import Mathlib.Data.List.Induction
import Mathlib.Data.List.Nodup
import DepGraph.Proofs.Survey.Idempotence
import DepGraph.Proofs.Survey.Reports

namespace DepGraph

namespace Survey

open Dependencies

/-- The maps of a survey hold what some reports say, and nothing else. -/
structure Records (r : Resolver) (reports : List FileReport) (s : Survey) : Prop where
  /-- The files in order, each with what its references mean. -/
  paths : s.paths.entries = reports.map fun f => (f.file, f.resolved r)
  /-- The modules of which something is stated. -/
  mem_modules : ∀ m, m ∈ s.modules.keys ↔ ∃ f ∈ reports, m ∈ f.report.modules.keys
  /-- What is stated of a module, one report after the other. -/
  modules : ∀ m, s.modules.targets m = reports.flatMap (·.report.modules.targets m)
  /-- The files that declare a module in order, each with its module. -/
  moduleOf : s.moduleOf.entries = reports.filterMap fun f => f.report.module?.map (f.file, ·)
  /-- A declared module has the first file that declares it. -/
  pathOf : ∀ m, s.pathOf.get? m = (reports.find? (·.report.module? = some m)).map (·.file)

theorem records_empty (r : Resolver) (separator : String) : (empty separator).Records r [] where
  paths := rfl
  mem_modules _ := ⟨fun h => absurd h List.not_mem_nil, by simp⟩
  modules _ := rfl
  moduleOf := rfl
  pathOf _ := rfl

section
variable {r : Resolver} {reports : List FileReport} {s : Survey}

/-! ## One report more -/

theorem pathOf_addReport (s : Survey) (r : Resolver) (f : FileReport) :
    (s.addReport r f).pathOf =
      match f.report.module? with
      | some name => s.pathOf.insertNew name f.file
      | none => s.pathOf := by
  unfold addReport Survey.add Report.module?
  cases f.report.declared with
  | none => rfl
  | some name => by_cases hname : name = "" <;> simp [hname, declare, Option.filter]

/-- The first file that declares a module stays. -/
theorem get?_pathOf_addReport (s : Survey) (r : Resolver) (f : FileReport) (m : String) :
    (s.addReport r f).pathOf.get? m =
      (s.pathOf.get? m).or (if f.report.module? = some m then some f.file else none) := by
  rw [pathOf_addReport]
  cases f.report.module? with
  | none => simp
  | some name =>
    by_cases hname : name = m
    · subst hname
      cases h : s.pathOf.get? name <;> simp [OrderedMap.insertNew, h]
    · simp [OrderedMap.insertNew, OrderedMap.get?_modify_of_ne _ (Ne.symm hname), hname]

namespace Records

theorem keys_paths (h : s.Records r reports) : s.paths.keys = reports.map (·.file) := by
  rw [OrderedMap.keys, h.paths, List.map_map]
  rfl

theorem mem_entries_moduleOf (h : s.Records r reports) {path name : String} :
    (path, name) ∈ s.moduleOf.entries ↔
      ∃ f ∈ reports, f.file = path ∧ f.report.module? = some name := by
  rw [h.moduleOf, List.mem_filterMap]
  refine exists_congr fun f => and_congr_right fun _ => ?_
  rw [Option.map_eq_some_iff]
  constructor
  · rintro ⟨n, hn, heq⟩
    obtain ⟨rfl, rfl⟩ := Prod.mk.inj heq
    exact ⟨rfl, hn⟩
  · rintro ⟨rfl, hn⟩
    exact ⟨name, hn, rfl⟩

/-- The report of a new file. -/
theorem add (h : s.Records r reports) {f : FileReport} (hnew : f.file ∉ reports.map (·.file)) :
    (s.addReport r f).Records r (reports ++ [f]) where
  paths := by
    rw [List.map_append, ← h.paths]
    exact entries_append (h.keys_paths ▸ hnew) _
  mem_modules m := by
    have hmerge : (s.addReport r f).modules = merge s.modules f.report.modules := rfl
    rw [hmerge, mem_keys_merge, h.mem_modules]
    simp [or_and_right, exists_or]
  modules m := by
    rw [targets_modules_addReport, h.modules, List.flatMap_append, List.flatMap_singleton]
  moduleOf := by
    rw [moduleOf_addReport, List.filterMap_append, ← h.moduleOf]
    cases hf : f.report.module? with
    | none => simp [hf]
    | some name =>
      -- no earlier report is about the file
      have hkeys : f.file ∉ s.moduleOf.keys := by
        rintro hmem
        obtain ⟨⟨path, n⟩, he, rfl⟩ := List.mem_map.1 hmem
        obtain ⟨g, hg, hfile, -⟩ := h.mem_entries_moduleOf.1 he
        exact hnew (List.mem_map.2 ⟨g, hg, hfile⟩)
      have hentries : (s.moduleOf.insert f.file name).entries =
          s.moduleOf.entries ++ [(f.file, name)] := OrderedMap.modifyEntries_of_not_mem hkeys _
      simp [hf, hentries]
  pathOf m := by
    rw [get?_pathOf_addReport, h.pathOf, List.find?_append, Option.map_or]
    congr 1
    by_cases hf : f.report.module? = some m <;> simp [hf]

/-! ## The two name maps -/

/-- A file has the module that its report declares, if there is one. -/
theorem get?_moduleOf (h : s.Records r reports) (hnodup : (reports.map (·.file)).Nodup)
    {f : FileReport} (hf : f ∈ reports) : s.moduleOf.get? f.file = f.report.module? := by
  ext name
  rw [OrderedMap.get?_eq_some_iff, h.mem_entries_moduleOf]
  constructor
  · rintro ⟨g, hg, hfile, hname⟩
    obtain rfl := List.inj_on_of_nodup_map hnodup hg hf hfile
    exact hname
  · exact fun hname => ⟨f, hf, rfl, hname⟩

/-- The modules that have a file are those that are declared. -/
theorem mem_keys_pathOf (h : s.Records r reports) {m : String} :
    m ∈ s.pathOf.keys ↔ ∃ f ∈ reports, f.report.module? = some m := by
  rw [← OrderedMap.get?_isSome_iff, h.pathOf, Option.isSome_map, List.find?_isSome]
  simp

/-- The file of a module declares it. -/
theorem moduleOf_of_pathOf (h : s.Records r reports) (hnodup : (reports.map (·.file)).Nodup)
    {m path : String} (hpath : s.pathOf.get? m = some path) : s.moduleOf.get? path = some m := by
  rw [h.pathOf, Option.map_eq_some_iff] at hpath
  obtain ⟨f, hfind, rfl⟩ := hpath
  rw [h.get?_moduleOf hnodup (List.mem_of_find?_eq_some hfind)]
  simpa using List.find?_some hfind

end Records

end

/-! ## All reports -/

theorem records_of_nodup (r : Resolver) (separator : String) {reports : List FileReport}
    (h : (reports.map (·.file)).Nodup) : (ofReports r separator reports).Records r reports := by
  induction reports using List.reverseRecOn with
  | nil => exact records_empty r separator
  | append_singleton reports f ih =>
    rw [List.map_append, List.nodup_append] at h
    have hnew : f.file ∉ reports.map (·.file) := fun hmem => h.2.2 _ hmem _ (by simp) rfl
    have hrun : ofReports r separator (reports ++ [f]) =
        (ofReports r separator reports).addReport r f := List.foldl_append
    exact hrun ▸ (ih h.1).add hnew

/-- **A survey of distinct files can be told from its reports**: its files are those of
  the reports in order, each with what its references mean; a module has the lists that
  the reports state of it, one after the other; a file has the module that its report
  declares, if the name is not empty; a module that is declared has the first file that
  declares it, which has this module. -/
theorem records_ofReports (r : Resolver) (separator : String) (reports : List FileReport)
    (hnodup : (reports.map (·.file)).Nodup) :
    let s := ofReports r separator reports
    s.Records r reports ∧
      (∀ f ∈ reports, s.moduleOf.get? f.file = f.report.module?) ∧
      (∀ m, m ∈ s.pathOf.keys ↔ ∃ f ∈ reports, f.report.module? = some m) ∧
      ∀ m path, s.pathOf.get? m = some path → s.moduleOf.get? path = some m := by
  intro s
  have h : s.Records r reports := records_of_nodup r separator hnodup
  exact ⟨h, fun f hf => h.get?_moduleOf hnodup hf, fun m => h.mem_keys_pathOf,
    fun m path => h.moduleOf_of_pathOf hnodup⟩

/-- Two files that declare one module, the second of which also states something of
  another one, and a file whose declared name is empty. -/
def packageFiles : List FileReport :=
  [⟨"a.py", "", ⟨some "pkg", ["c.py", "os"], OrderedMap.ofList [("pkg", ["x"])]⟩⟩,
    ⟨"b.py", "", ⟨some "pkg", [], OrderedMap.ofList [("app", ["y"]), ("pkg", ["z"])]⟩⟩,
    ⟨"c.py", "", ⟨some "", ["b.py"], ∅⟩⟩]

theorem records_ofReports_packageFiles :
    (packageFiles.map (·.file)).Nodup ∧
      let s := ofReports (byName ["a.py", "b.py", "c.py"]) "." packageFiles
      s.paths.entries =
          [("a.py", ["c.py", "*external*/os"]), ("b.py", []), ("c.py", ["b.py"])] ∧
        s.modules.targets "pkg" = ["x", "z"] ∧ "app" ∈ s.modules.keys ∧
        s.moduleOf.get? "b.py" = some "pkg" ∧ s.moduleOf.get? "c.py" = none ∧
        s.pathOf.get? "pkg" = some "a.py" ∧ "app" ∉ s.pathOf.keys ∧
        s.moduleOf.get? "a.py" = some "pkg" := by
  have hnodup : (packageFiles.map (·.file)).Nodup := by decide
  obtain ⟨h, hmodule, hdeclared, hback⟩ :=
    records_ofReports (byName ["a.py", "b.py", "c.py"]) "." packageFiles hnodup
  have hfirst := (h.pathOf "pkg").trans (by decide : _ = some "a.py")
  refine ⟨hnodup, h.paths.trans (by decide +kernel), (h.modules "pkg").trans (by decide),
    (h.mem_modules "app").2 (by decide), ?_, ?_, hfirst, ?_, hback "pkg" "a.py" hfirst⟩
  · exact (hmodule _ (List.getElem_mem (by decide : 1 < packageFiles.length))).trans (by decide)
  · exact (hmodule _ (List.getElem_mem (by decide : 2 < packageFiles.length))).trans (by decide)
  · rw [hdeclared]
    decide

end Survey

end DepGraph
