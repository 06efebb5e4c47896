/-
  DepGraph — the survey that a run finds.

  A run that finds no cache file surveys its target: every file is scanned, the
  reports are collected in the order of the files, and the views are completed.
  It fails only if the survey cannot be kept in the cache file.

  * `Surveyable`: what a run needs to survey its target.
  * `Surveyable.exists_target`: the target is found, its files are distinct, and
    all of them can be asked for.
  * `Target.survey_eq`: the survey of a target, as that of the reports of its files.
  * `Finds`: how a run ends; `finds_survey` says that these are all the ways.
  * `Surveyable.exists_survey`: the survey that a run finds.
  * `survey_ofLanguage`: the survey of a whole tree, without filters and rules.
  * `survey_closed`: its files are those of the target, and what they depend on
    are files of the target and what is external.
-/
import DepGraph.Proofs.Survey.Closed
import DepGraph.Proofs.Workspace.Names
import DepGraph.Run

namespace DepGraph

open DepGraph.Text

/-- What a run needs to survey its target: the tree, a known language, a target
  that exists, and filters and mapping rules that can be read. -/
structure Surveyable (ws : Workspace) (c : Config) (l : Language) : Prop where
  names : ws.WellNamed
  language : languageOf c.language = .ok l
  target : ws.pathExists c.target.text = .ok true
  filters : ∃ f, filterOf c.inputFilters = .ok f
  mapping : ∃ rules, c.mappingRules = .ok rules

/-- The files of a target are distinct, and the paths to them can be asked for. -/
structure Target.Sound (t : Target) : Prop where
  nodup : t.files.Nodup
  root : t.root.NoNull
  files : ∀ file ∈ t.files, '\x00' ∉ file.toList

/-! ## The target -/

namespace Workspace

theorem exists_locate {ws : Workspace} {path : String} (h : ws.pathExists path = .ok true) :
    '\x00' ∉ path.toList ∧ ∃ place, ws.locate path = .ok place := by
  unfold pathExists at h
  split at h
  · cases h
  · next hnull =>
    refine ⟨hnull, ?_⟩
    split at h
    · next place hplace => exact ⟨place, hplace⟩
    · cases h
    · cases h

/-- The files of a language below a folder that exists can be listed. -/
theorem exists_collect {ws : Workspace} (hw : ws.WellNamed) {folder : Path}
    (h : ws.pathExists folder.text = .ok true) (l : Language) (f : NameFilter)
    (skip : List String) :
    ∃ files, ws.collect l f skip folder = .ok files ∧ files.Nodup ∧
      ∀ file ∈ files, '\x00' ∉ file.toList := by
  obtain ⟨-, place, hplace⟩ := exists_locate h
  have hbelow : ws.filesBelow folder.text = .ok ((ws.listing place).map (join "/")) := by
    rw [filesBelow, hplace]
  refine ⟨_, by rw [collect, hbelow]; rfl, (nodup_filesBelow hw hbelow).filter _, ?_⟩
  exact fun file hfile => null_not_mem_filesBelow hw hbelow file (List.mem_of_mem_filter hfile)

/-- A folder is searched for the files of a language that pass the filter. -/
theorem discover_of_folder {ws : Workspace} {c : Config} {l : Language} {f : NameFilter}
    {files : List String} (htarget : ws.pathExists c.target.text = .ok true)
    (hfolder : ws.isFile c.target.text = false) (hfilter : filterOf c.inputFilters = .ok f)
    (hfiles : ws.collect l f c.skippedFolders c.target = .ok files) :
    ws.discover c l = .ok ⟨c.target, files⟩ := by
  simp only [discover, htarget, hfolder, hfilter, bind, Except.bind, hfiles]
  rfl

/-- A target that is discovered is surveyed. -/
theorem surveyTarget_of_discover {ws : Workspace} {c : Config} {l : Language} {t : Target}
    {rules : List MappingRule} (hlanguage : languageOf c.language = .ok l)
    (ht : ws.discover c l = .ok t) (hrules : c.mappingRules = .ok rules) :
    ws.surveyTarget c = .ok (t.files.length,
      t.survey ws l (t.resolver l c.strict rules) (ScanOptions.ofValues c.options)) := by
  simp only [surveyTarget, hlanguage, ht, hrules, bind, Except.bind]
  rfl

end Workspace

namespace Surveyable

variable {ws : Workspace} {c : Config} {l : Language}

/-- The target is found, and its files are sound. -/
theorem exists_target (h : Surveyable ws c l) : ∃ t, ws.discover c l = .ok t ∧ t.Sound := by
  have hroot : c.target.NoNull := Path.noNull_text_iff.1 (Workspace.exists_locate h.target).1
  by_cases hfile : ws.isFile c.target.text = true
  · have ht : ws.discover c l = .ok ⟨c.target.parent, [c.target.name]⟩ := by
      simp only [Workspace.discover, h.target, hfile, if_true]
    refine ⟨_, ht, List.nodup_singleton _, hroot.parent, ?_⟩
    simpa using hroot.name
  · obtain ⟨f, hf⟩ := h.filters
    obtain ⟨files, hfiles, hnodup, hnull⟩ :=
      Workspace.exists_collect h.names h.target l f c.skippedFolders
    have hfolder : ws.isFile c.target.text = false := by simpa using hfile
    exact ⟨⟨c.target, files⟩, Workspace.discover_of_folder h.target hfolder hf hfiles, hnodup, hroot,
      hnull⟩

end Surveyable

/-! ## The survey -/

namespace Target

section
variable (t : Target) (ws : Workspace) (l : Language) (r : Resolver) (options : ScanOptions)

/-- What the scanner of a language reports of the files of a target. -/
def fileReports : List FileReport :=
  t.files.map fun file => ⟨file, directoryOf file, reportOf l (t.source ws options file)⟩

theorem files_fileReports : (t.fileReports ws l options).map (·.file) = t.files := by
  simp [fileReports, Function.comp_def]

/-- The survey of a target is that of the reports of its files. -/
theorem survey_eq :
    t.survey ws l r options =
      (Survey.ofReports r l.separator (t.fileReports ws l options)).derive := by
  rw [survey, collected, Survey.ofReports, fileReports, List.foldl_map]

end

/-- The survey of a target has the files of the target, and they depend on these
  files and on what is external. -/
theorem survey_closed_of_sound {t : Target} (h : t.Sound) (ws : Workspace) (l : Language)
    (strict : Bool) (rules : List MappingRule) (options : ScanOptions) :
    (t.survey ws l (t.resolver l strict rules) options).paths.keys = t.files ∧
      (t.survey ws l (t.resolver l strict rules) options).Closed := by
  have hfiles := t.files_fileReports ws l options
  have hnodup : ((t.fileReports ws l options).map (·.file)).Nodup := hfiles ▸ h.nodup
  obtain ⟨_, hcollected⟩ :=
    Survey.collected_ofReports (t.resolver l strict rules) l.separator hnodup
  rw [survey_eq]
  refine ⟨?_, Survey.Closed.derive (Survey.closed_ofReports _ hnodup ?_) hcollected.filed⟩
  · rw [Survey.keys_paths_derive hcollected.filed, Survey.keys_paths_ofReports _ _ _ hnodup, hfiles]
  · rw [hfiles]
    exact fun _ hfile => hfile

end Target

/-- How a run that looks for a survey ends: it fails, it finds a survey in its cache
  file, or it surveys the target and keeps what it finds. -/
inductive Finds (ws : Workspace) (c : Config) : Run Survey → Prop
  | failed (progress : List Progress) (failure : Failure) :
    Finds ws c ⟨ws, progress, .error failure⟩
  | cached {s : Survey} (h : ws.cached? c = .ok (some s)) : Finds ws c ⟨ws, [], .ok s⟩
  | surveyed {n : Nat} {s : Survey} {after : Workspace} (hcache : ws.cached? c = .ok none)
    (h : ws.surveyTarget c = .ok (n, s)) (hstore : ws.storeCache c s = .ok after) :
    Finds ws c ⟨after, Meter.reports Run.scanStage n, .ok s⟩

theorem finds_survey (ws : Workspace) (c : Config) : Finds ws c (Run.survey ws c) := by
  unfold Run.survey
  cases hcache : ws.cached? c with
  | error failure => exact .failed _ _
  | ok found =>
    cases found with
    | some s => exact .cached hcache
    | none =>
      cases hsurvey : ws.surveyTarget c with
      | error failure => exact .failed _ _
      | ok surveyed =>
        cases hstore : ws.storeCache c surveyed.2 with
        | error failure =>
          simp only [hstore]
          exact .failed _ _
        | ok after =>
          simp only [hstore]
          exact .surveyed hcache hsurvey hstore

theorem cached?_of_no_cacheFile (ws : Workspace) {c : Config} (h : c.cacheFile = none) :
    ws.cached? c = .ok none := by
  rw [Workspace.cached?, h]

theorem storeCache_of_no_cacheFile (ws : Workspace) {c : Config} (h : c.cacheFile = none)
    (s : Survey) : ws.storeCache c s = .ok ws := by
  rw [Workspace.storeCache, h]

/-- Without a cache file a run ends with the survey of its target. -/
theorem survey_of_no_cacheFile {ws : Workspace} {c : Config} {n : Nat} {s : Survey}
    (h : c.cacheFile = none) (hsurvey : ws.surveyTarget c = .ok (n, s)) :
    Run.survey ws c = ⟨ws, Meter.reports Run.scanStage n, .ok s⟩ := by
  unfold Run.survey
  simp only [cached?_of_no_cacheFile ws h, hsurvey, storeCache_of_no_cacheFile ws h]

/-- A run that finds no cache file ends with the survey of its target, if it can be
  kept. -/
theorem result_survey_of_surveyTarget {ws : Workspace} {c : Config} {n : Nat} {s : Survey}
    (hcache : ws.cached? c = .ok none) (h : ws.surveyTarget c = .ok (n, s)) :
    (Run.survey ws c).result = (ws.storeCache c s).map fun _ => s := by
  unfold Run.survey
  simp only [hcache, h]
  cases ws.storeCache c s <;> rfl

/-- The survey that a run without a cache file finds. -/
theorem Surveyable.exists_survey {ws : Workspace} {c : Config} {l : Language}
    (h : Surveyable ws c l) :
    ∃ t rules, ws.discover c l = .ok t ∧ t.Sound ∧ c.mappingRules = .ok rules ∧
      ws.surveyTarget c = .ok (t.files.length,
        t.survey ws l (t.resolver l c.strict rules) (ScanOptions.ofValues c.options)) := by
  obtain ⟨t, ht, hsound⟩ := h.exists_target
  obtain ⟨rules, hrules⟩ := h.mapping
  exact ⟨t, rules, ht, hsound, hrules, Workspace.surveyTarget_of_discover h.language ht hrules⟩

/-- **The survey that a run finds is closed**: its files are those of the target, in
  the order in which they were found, and each of them depends on files of the
  target and on what is tagged as external.  The run ends with it unless it cannot
  be kept in the cache file. -/
theorem survey_closed {ws : Workspace} {c : Config} {l : Language} (h : Surveyable ws c l)
    (hcache : ws.cached? c = .ok none) :
    ∃ t s, ws.discover c l = .ok t ∧
      (Run.survey ws c).result = (ws.storeCache c s).map (fun _ => s) ∧
      s.paths.keys = t.files ∧
      ∀ path, ∀ target ∈ s.paths.targets path, target ∈ t.files ∨ isExternal target = true := by
  obtain ⟨t, rules, ht, hsound, -, hsurvey⟩ := h.exists_survey
  obtain ⟨hkeys, hclosed⟩ :=
    Target.survey_closed_of_sound hsound ws l c.strict rules (ScanOptions.ofValues c.options)
  refine ⟨t, _, ht, result_survey_of_surveyTarget hcache hsurvey, hkeys, fun path target ht => ?_⟩
  rw [← hkeys]
  exact hclosed path target ht

/-- A run over all files of a language, with nothing else set than a cache file. -/
def Config.ofLanguage (l : Language) (cacheFile : Option Path) : Config :=
  { Config.ofSettings Setting.default with language := l.name, cacheFile }

theorem surveyable_ofLanguage {ws : Workspace} (hnames : ws.WellNamed) (l : Language)
    (cacheFile : Option Path) : Surveyable ws (Config.ofLanguage l cacheFile) l where
  names := hnames
  language := by cases l <;> rfl
  target := show ws.pathExists "." = .ok true from rfl
  filters := ⟨_, rfl⟩
  mapping := ⟨_, rfl⟩

/-- The files of a language in the whole tree, in their order. -/
def Workspace.wholeTarget (ws : Workspace) (l : Language) : Target :=
  ⟨⟨0, []⟩, ((ws.listing []).map (join "/")).filter fun file =>
    !isSkipped auxiliaryFolders file && l.handles file⟩

theorem discover_ofLanguage (ws : Workspace) (l : Language) (cacheFile : Option Path) :
    ws.discover (Config.ofLanguage l cacheFile) l = .ok (ws.wholeTarget l) := by
  have htarget : ws.pathExists "." = .ok true := rfl
  have hfolder : ws.isFile "." = false := rfl
  have hbelow : ws.filesBelow "." = .ok ((ws.listing []).map (join "/")) := rfl
  have hfiles : ws.collect l .all auxiliaryFolders ⟨0, []⟩ = .ok (ws.wholeTarget l).files := by
    show ((ws.filesBelow ".").mapError _).map _ = _
    rw [hbelow]
    simp [Workspace.wholeTarget, Except.mapError, Except.map, NameFilter.passes, NameFilter.all]
  exact Workspace.discover_of_folder htarget hfolder rfl hfiles

theorem survey_ofLanguage (ws : Workspace) (l : Language) :
    Run.survey ws (Config.ofLanguage l none) =
      ⟨ws, Meter.reports Run.scanStage (ws.wholeTarget l).files.length,
        .ok ((ws.wholeTarget l).survey ws l ((ws.wholeTarget l).resolver l false [])
          (ScanOptions.ofValues ∅))⟩ := by
  have hlanguage : languageOf l.name = .ok l := by cases l <;> rfl
  exact survey_of_no_cacheFile rfl
    (Workspace.surveyTarget_of_discover hlanguage (discover_ofLanguage ws l none) rfl)

/-- Two files, one of which includes the other and one that does not exist. -/
def twoIncludes : Workspace :=
  let text := fun (s : String) => Entry.file (Utf8.encode s.toList)
  ⟨OrderedMap.ofList [(["a.h"], text "#include <b.h>\n#include <lib.h>"), (["b.h"], text "")]⟩

theorem surveyable_twoIncludes (l : Language) (cacheFile : Option Path) :
    Surveyable twoIncludes (Config.ofLanguage l cacheFile) l :=
  surveyable_ofLanguage ⟨by decide, by decide⟩ l cacheFile

theorem survey_closed_twoIncludes :
    ∃ t s, twoIncludes.discover (Config.ofLanguage .c none) .c = .ok t ∧ t.files = ["a.h", "b.h"] ∧
      (Run.survey twoIncludes (Config.ofLanguage .c none)).result = .ok s ∧
      s.paths.keys = t.files ∧
      ∀ path, ∀ target ∈ s.paths.targets path, target ∈ t.files ∨ isExternal target = true := by
  obtain ⟨t, s, ht, hresult, hclosed⟩ := survey_closed (surveyable_twoIncludes .c none) rfl
  have hlisting : twoIncludes.listing [] = [["a.h"], ["b.h"]] :=
    Workspace.listing_of_pairwise rfl (by decide)
  have hfiles : t.files = ["a.h", "b.h"] := by
    obtain rfl := Except.ok.inj (ht.symm.trans (discover_ofLanguage twoIncludes .c none))
    rw [Workspace.wholeTarget, hlisting]
    decide +kernel
  exact ⟨t, s, ht, hfiles, hresult, hclosed⟩

end DepGraph
