/-
  DepGraph — files that cannot be read.

  Every file of a target is scanned by itself: what it contributes to the survey
  depends on nothing but itself and the lock files beside it.  A file that cannot be
  read contributes nothing, whatever it holds; it neither ends the run nor changes
  what the other files contribute.

  * `Contributes`: what a file contributes to a survey.
  * `Target.pathsRead`: the files that a scan of a file may read.
  * `Target.Sound.contributes`: every file of a target contributes something.
  * `Target.scan_source_congr`: a scan depends on the files that it may read.
  * `survey_isolates_files`: a run ends with the survey of what its files contribute.
-/
import DepGraph.Proofs.Language.Scan
import DepGraph.Proofs.Run.Survey

namespace DepGraph

open DepGraph.Text Attempt

/-- What a file contributes to a survey: what its scan reports or, if it cannot be
  read, nothing.  No other error lets a file contribute. -/
inductive Contributes (l : Language) (s : Source) : Report → Prop
  | scanned {report : Report} (h : l.scan s = .ok report) : Contributes l s report
  | unread {e : FileError} (h : l.scan s = .error e) (he : e.isOfReading = true) :
    Contributes l s .empty

/-- A scan that fails, fails in reading, if the paths that it reads can be asked for. -/
theorem contributes_reportOf {l : Language} {s : Source} (htext : s.text ≠ .error .nullCharacter)
    (hbeside : s.beside "yarn.lock" ≠ .error .nullCharacter) :
    Contributes l s (reportOf l s) := by
  unfold reportOf
  cases hscan : l.scan s with
  | ok report => exact .scanned hscan
  | error e =>
    -- an error is of reading unless a path cannot be asked for
    have hread : e ≠ .nullCharacter → e.isOfReading = true := by
      cases e <;> simp [FileError.isOfReading]
    refine .unread hscan ?_
    rcases Language.error_of_scan hscan with h | ⟨-, h⟩
    · exact hread fun he => htext (he ▸ h)
    · rcases error_of_yarnLockIn h with h | ⟨bytes, -, h⟩
      · exact hread fun he => hbeside (he ▸ h)
      · exact isOfReading_of_textOf h

/-! ## Targets -/

namespace Workspace

variable {ws : Workspace} {p : Path}

theorem readBytes_ne_nullCharacter (h : p.NoNull) :
    ws.readBytes p.text ≠ .error .nullCharacter := by
  unfold readBytes
  rw [if_neg (Path.noNull_text_iff.2 h)]
  intro herror
  obtain ⟨_, -, hcause⟩ := mapError_eq_error_iff.1 herror
  cases hcause

theorem readTextLossy_ne_nullCharacter (h : p.NoNull) :
    ws.readTextLossy p.text ≠ .error .nullCharacter :=
  fun herror => readBytes_ne_nullCharacter h (map_eq_error_iff.1 herror)

end Workspace

namespace Target

/-- The path to a file beside a file of a target. -/
def besidePath (t : Target) (file name : String) : Path :=
  t.root ++ Path.ofText (directoryOf file) ++ Path.ofText name

/-- The paths of the files that a scan of a file may read. -/
def pathsRead (t : Target) (l : Language) (options : ScanOptions) (file : String) : List String :=
  (t.root ++ Path.ofText file).text ::
    (lockFilesOf l options).map fun name => (t.besidePath file name).text

section
variable (t : Target) (ws : Workspace) (options : ScanOptions) (file name : String)

theorem text_source :
    (t.source ws options file).text = ws.readTextLossy (t.root ++ Path.ofText file).text := by
  rw [source]

theorem beside_source :
    (t.source ws options file).beside name = ws.readBytes (t.besidePath file name).text := by
  rw [source, besidePath]

end

/-- Every file of a target contributes what its scan reports, or nothing. -/
theorem Sound.contributes {t : Target} (h : t.Sound) (ws : Workspace) (l : Language)
    (options : ScanOptions) {file : String} (hfile : file ∈ t.files) :
    Contributes l (t.source ws options file) (reportOf l (t.source ws options file)) := by
  have hnull := h.files file hfile
  refine contributes_reportOf ?_ ?_
  · rw [text_source]
    exact Workspace.readTextLossy_ne_nullCharacter (h.root.append (Path.noNull_ofText hnull))
  · rw [beside_source]
    refine Workspace.readBytes_ne_nullCharacter ((h.root.append ?_).append ?_)
    · exact Path.noNull_ofText (null_not_mem_directoryOf hnull)
    · exact Path.noNull_ofText (by decide)

/-- A scan depends on the files that it may read, and on nothing else. -/
theorem scan_source_congr (t : Target) {ws ws' : Workspace} {l : Language} {options : ScanOptions}
    {file : String}
    (h : ∀ path ∈ t.pathsRead l options file, ws'.readBytes path = ws.readBytes path) :
    l.scan (t.source ws' options file) = l.scan (t.source ws options file) := by
  refine Language.scan_congr l rfl ?_ rfl fun name hname => ?_
  · rw [text_source, text_source, Workspace.readTextLossy, Workspace.readTextLossy,
      h _ List.mem_cons_self]
  · rw [beside_source, beside_source]
    exact h _ (List.mem_cons_of_mem _ (List.mem_map_of_mem hname))

end Target

/-! ## Runs -/

/-- **No file keeps a run from its survey, and none spills over.**  A run without a
  cache file ends with the survey of the reports of its files, one for each.  A file
  that can be read reports what its scan says, one that cannot be read reports
  nothing; and what a scan says depends on nothing but the files that it may read. -/
theorem survey_isolates_files {ws : Workspace} {c : Config} {l : Language}
    (h : Surveyable ws c l) (hcache : c.cacheFile = none) :
    ∃ t rules reports, ws.discover c l = .ok t ∧ c.mappingRules = .ok rules ∧
      Run.survey ws c = ⟨ws, Meter.reports Run.scanStage t.files.length,
        .ok (Survey.ofReports (t.resolver l c.strict rules) l.separator reports).derive⟩ ∧
      reports.map (·.file) = t.files ∧
      ∀ f ∈ reports, f.directory = directoryOf f.file ∧
        Contributes l (t.source ws (ScanOptions.ofValues c.options) f.file) f.report ∧
        ∀ ws' : Workspace,
          (∀ path ∈ t.pathsRead l (ScanOptions.ofValues c.options) f.file,
            ws'.readBytes path = ws.readBytes path) →
          l.scan (t.source ws' (ScanOptions.ofValues c.options) f.file) =
            l.scan (t.source ws (ScanOptions.ofValues c.options) f.file) := by
  obtain ⟨t, rules, ht, hsound, hrules, hsurvey⟩ := h.exists_survey
  refine ⟨t, rules, t.fileReports ws l (ScanOptions.ofValues c.options), ht, hrules, ?_,
    t.files_fileReports .., fun f hf => ?_⟩
  · rw [survey_of_no_cacheFile hcache hsurvey, Target.survey_eq]
  · obtain ⟨file, hfile, rfl⟩ := List.mem_map.1 hf
    exact ⟨rfl, hsound.contributes ws l _ hfile, fun ws' => t.scan_source_congr⟩

/-- A file that cannot be opened, and one that includes it and ends with a byte that
  belongs to no character. -/
def brokenFiles : Workspace :=
  ⟨OrderedMap.ofList [(["a.h"], .dangling),
    (["b.h"], .file (Utf8.encode "#include <a.h>\n".toList ++ [0xFF]))]⟩

theorem surveyable_brokenFiles :
    Surveyable brokenFiles (Config.ofLanguage .c none) .c :=
  surveyable_ofLanguage ⟨by decide, by decide⟩ .c none

theorem survey_isolates_files_brokenFiles :
    ∃ (t : Target) (s : Survey) (reports : List FileReport),
      brokenFiles.discover (Config.ofLanguage .c none) .c = .ok t ∧
      (Run.survey brokenFiles (Config.ofLanguage .c none)).result = .ok s ∧
      s.paths.entries = [("a.h", []), ("b.h", ["a.h"])] ∧ reports.map (·.file) = t.files ∧
      ∀ f ∈ reports, Contributes .c
        (t.source brokenFiles (ScanOptions.ofValues ∅) f.file) f.report := by
  obtain ⟨t, rules, reports, ht, -, -, hfiles, hreports⟩ :=
    survey_isolates_files surveyable_brokenFiles rfl
  have hlisting : brokenFiles.listing [] = [["a.h"], ["b.h"]] :=
    Workspace.listing_of_pairwise rfl (by decide)
  have hrun := survey_ofLanguage brokenFiles .c
  rw [Workspace.wholeTarget, hlisting] at hrun
  refine ⟨t, _, reports, ht, congrArg Run.result hrun, ?_, hfiles, fun f hf => (hreports f hf).2.1⟩
  decide +kernel

end DepGraph
