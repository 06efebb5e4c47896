/-
  DepGraph — surveys that are kept.

  A survey is kept as the JSON text of its stored form, in the cache file of a run
  or in the raw format of a graph.  Either text is read as the survey that it was
  made from, with the order of all names.  So the next run with the same cache file
  ends with the survey of the run before it, whatever else it is asked for.

  * `readCache_render`: the text of a survey is read as this survey.
  * `textOf_encode_render`: the bytes of the text are read as the text.
  * `Workspace.cached?_of_storeCache`: reading the cache file that was written.
  * `Finds.cached?_workspace`: after a run, its cache file holds what it ended with.
  * `cache_roundtrip`: surveys survive both texts, and runs find them again.
-/
import DepGraph.Export.Data
import DepGraph.Proofs.Run.Survey
import DepGraph.Proofs.Survey.Json
import DepGraph.Proofs.Workspace.Write

namespace DepGraph

open DepGraph.Json DepGraph.Text Attempt

/-! ## The texts of a survey -/

section
variable (s : Survey) (st : Style)

/-- The text of a survey is read as this survey, however it is written. -/
theorem readCache_render : readCache (s.toJson.render st).toList = .ok s := by
  have hread : read? (s.toJson.render st).toList = some s.toJson := by
    rw [render, String.toList_ofList]
    exact read?_renderAt st 0 s.numberFree_toJson
  have hnesting : ¬ nestingLimit < s.toJson.nesting :=
    Nat.not_lt.2 (Nat.le_trans s.nesting_toJson (by decide))
  have hcheck : readForCheck (s.toJson.render st).toList = .ok s.toJson := by
    unfold readForCheck
    simp only [hread, if_neg hnesting]
  rw [readCache, hcheck, Except.bind, s.ofJson_toJson]

theorem foldNewlines_render :
    foldNewlines (s.toJson.render st).toList = (s.toJson.render st).toList := by
  rw [render, String.toList_ofList]
  exact foldNewlines_eq_self (return_not_mem_renderAt st s.numberFree_toJson 0)

/-- The bytes of the text of a survey are read as this text. -/
theorem textOf_encode_render :
    Workspace.textOf (Utf8.encode (s.toJson.render st).toList) =
      .ok (s.toJson.render st).toList := by
  rw [Workspace.textOf, Utf8.decode_encode, Except.map, foldNewlines_render]
  rfl

end

/-! ## The cache file -/

namespace Workspace

variable {ws ws' : Workspace} {c c' : Config} {path : Path} {s : Survey}

theorem cached?_congr (h : c'.cacheFile = c.cacheFile) : ws.cached? c' = ws.cached? c := by
  rw [cached?, cached?, h]

/-- The cache file that was written holds the survey. -/
theorem cached?_of_storeCache (hpath : c.cacheFile = some path)
    (h : ws.storeCache c s = .ok ws') : ws'.cached? c = .ok (some s) := by
  rw [storeCache, hpath] at h
  obtain ⟨hexists, htext⟩ := readText_writeText (mapError_eq_ok_iff.1 h)
  have hload : ws'.loadCache path = .ok s := by
    rw [loadCache, htext, cacheText, foldNewlines_render]
    simp only [bind, Except.bind, Except.mapError, readCache_render]
  rw [cached?, hpath]
  simp only [hexists, hload]
  rfl

end Workspace

section
variable {ws : Workspace} {c : Config} {s : Survey} {r : Run Survey}

/-- A run that finds a survey in its cache file leaves everything as it is. -/
theorem survey_of_cached? (h : ws.cached? c = .ok (some s)) :
    Run.survey ws c = ⟨ws, [], .ok s⟩ := by
  rw [Run.survey, h]

/-- After a run that ends with a survey, its cache file holds the survey. -/
theorem Finds.cached?_workspace (hr : Finds ws c r) {path : Path} (hpath : c.cacheFile = some path)
    (h : r.result = .ok s) : r.workspace.cached? c = .ok (some s) := by
  cases hr with
  | failed => cases h
  | cached hcached =>
    rw [← Except.ok.inj h]
    exact hcached
  | surveyed _ _ hstore =>
    rw [← Except.ok.inj h]
    exact Workspace.cached?_of_storeCache hpath hstore

/-- A run keeps the names of a tree well formed. -/
theorem Finds.wellNamed (hr : Finds ws c r) (h : ws.WellNamed) : r.workspace.WellNamed := by
  cases hr with
  | failed | cached => exact h
  | surveyed _ _ hstore =>
    rw [Workspace.storeCache] at hstore
    split at hstore
    · exact Except.ok.inj hstore ▸ h
    · exact h.writeText (mapError_eq_ok_iff.1 hstore)

end

/-- **Surveys survive being kept.**  The text of a cache file is read from its bytes
  as it was written, and it and the raw format of a graph are read as the survey that
  they were made from.  After a run that ends with a survey, a run with the same cache
  file ends with this survey and changes nothing, whatever its target and language. -/
theorem cache_roundtrip :
    (∀ s : Survey,
      Workspace.textOf (Utf8.encode (cacheText s).toList) = .ok (cacheText s).toList ∧
        readCache (cacheText s).toList = .ok s) ∧
    (∀ d : Diagram, readCache (surveyText d).toList = .ok d.survey) ∧
    ∀ (ws : Workspace) (c : Config) (path : Path) (s : Survey), c.cacheFile = some path →
      (Run.survey ws c).result = .ok s → ∀ c' : Config, c'.cacheFile = some path →
      Run.survey (Run.survey ws c).workspace c' = ⟨(Run.survey ws c).workspace, [], .ok s⟩ := by
  refine ⟨fun s => ⟨textOf_encode_render s cacheStyle, readCache_render s cacheStyle⟩,
    fun d => readCache_render d.survey _, fun ws c path s hpath h c' hpath' => ?_⟩
  refine survey_of_cached? ?_
  rw [Workspace.cached?_congr (hpath'.trans hpath.symm)]
  exact (finds_survey ws c).cached?_workspace hpath h

/-- A run over all files of a language that keeps its survey. -/
def Config.keeping (l : Language) : Config := Config.ofLanguage l (some ⟨0, ["k"]⟩)

theorem cache_roundtrip_twoIncludes :
    ∃ s, (Run.survey twoIncludes (Config.keeping .c)).result = .ok s ∧
      (Run.survey (Run.survey twoIncludes (Config.keeping .c)).workspace
        (Config.keeping .python)).result = .ok s := by
  have hpath : Path.text ⟨0, ["k"]⟩ = "k" := rfl
  have hcache : twoIncludes.cached? (Config.keeping .c) = .ok none := by
    have hexists : twoIncludes.pathExists "k" = .ok false := rfl
    simp only [Workspace.cached?, Config.keeping, Config.ofLanguage, hpath, hexists]
  have hstore : ∀ s, ∃ after, twoIncludes.storeCache (Config.keeping .c) s = .ok after := by
    have hplace : twoIncludes.placeToWrite "k" = .ok ["k"] := rfl
    intro s
    simp only [Workspace.storeCache, Config.keeping, Config.ofLanguage, hpath,
      Workspace.writeText, Workspace.write, hplace]
    exact ⟨_, rfl⟩
  obtain ⟨t, rules, -, -, -, hsurvey⟩ := (surveyable_twoIncludes .c _).exists_survey
  have hresult := result_survey_of_surveyTarget hcache hsurvey
  obtain ⟨after, hafter⟩ := hstore _
  rw [hafter] at hresult
  have hagain := cache_roundtrip.2.2 _ _ _ _ rfl hresult (Config.keeping .python) rfl
  exact ⟨_, hresult, congrArg Run.result hagain⟩

end DepGraph
