/-
  DepGraph — files that a configuration names.

  A configuration file and the cache file of a run come from outside.  What is wrong
  with the shape of their values is blamed on the configuration, as is a configuration
  file that cannot be opened.  But neither is a file whose bytes are not those of a
  text, nor a cache file that cannot be read.

  * `Failure.isOfConfiguration`: the failures that blame the configuration.
  * `blamesOnly_load_iff`, `blamesOnly_loadCache_iff`: when no other failure arises.
  * `invalid_files_blamed_iff`: both, for the runs that read the files.
  * `undecodable_file_escapes`: a file whose only byte starts no character.
-/
import DepGraph.Proofs.Run.Survey
import DepGraph.Proofs.Workspace.Reading

namespace DepGraph

open DepGraph.Text Attempt

/-- The failure lies in a file that a configuration names, or in a value that it sets. -/
def Failure.isOfConfiguration : Failure → Bool
  | unreadableConfig .. | invalidConfig .. | invalidCache .. | invalidDepth _ | invalidMapping _
  | invalidOption _ | layer _ | missingTarget _ | invalidFilter _ (.fault ..)
  | invalidFilter _ .unboundedLookBehind => true
  | _ => false

/-- An attempt ends with a value, or blames the configuration. -/
def BlamesOnlyConfiguration {α : Type} (attempt : Except Failure α) : Prop :=
  ∀ failure, attempt = .error failure → failure.isOfConfiguration = true

/-! ## Configuration files -/

theorem blamesOnly_load_iff (ws : Workspace) (path : Path) :
    BlamesOnlyConfiguration (Config.load ws path) ↔
      path.NoNull ∧ ∀ bytes, ws.bytes path.text = .ok bytes → Workspace.IsText bytes := by
  rw [← Path.noNull_text_iff, Config.load]
  have hreads := ws.reads_readText path.text
  generalize ws.readText path.text = read at hreads
  cases hreads with
  | null hnull => exact iff_of_false (fun h => Bool.false_ne_true (h _ rfl)) fun h => h.1 hnull
  | fault hnull hbytes =>
    refine iff_of_true (fun _ hfailure => ?_) ⟨hnull, by simp [hbytes]⟩
    obtain rfl := Except.error.inj hfailure
    rfl
  | undecodable hnull hbytes htext =>
    exact iff_of_false (fun h => Bool.false_ne_true (h _ rfl)) fun h => htext (h.2 _ hbytes)
  | text hnull hbytes =>
    refine iff_of_true (fun failure hfailure => ?_) ⟨hnull, ?_⟩
    · obtain ⟨issues, -, rfl⟩ := mapError_eq_error_iff.1 hfailure
      rfl
    · intro bytes hbytes'
      obtain rfl := Except.ok.inj (hbytes.symm.trans hbytes')
      exact ⟨_, rfl⟩

/-! ## Cache files -/

section
variable {ws : Workspace} {c : Config} {path : Path}

theorem blamesOnly_loadCache_iff (hexists : ws.pathExists path.text = .ok true) :
    BlamesOnlyConfiguration (ws.loadCache path) ↔
      ∃ text, ws.bytes path.text = .ok (Utf8.encode text) := by
  have hnull := (Workspace.exists_locate hexists).1
  rw [Workspace.loadCache]
  have hreads := ws.reads_readText path.text
  generalize ws.readText path.text = read at hreads
  cases hreads with
  | null h => exact absurd h hnull
  | fault _ hbytes =>
    refine iff_of_false (fun h => Bool.false_ne_true (h _ rfl)) ?_
    simp [hbytes]
  | undecodable _ hbytes htext =>
    refine iff_of_false (fun h => Bool.false_ne_true (h _ rfl)) ?_
    rintro ⟨text, hbytes'⟩
    exact htext ⟨text, Except.ok.inj (hbytes.symm.trans hbytes')⟩
  | text _ hbytes =>
    refine iff_of_true (fun failure hfailure => ?_) ⟨_, hbytes⟩
    obtain ⟨issues, -, rfl⟩ := mapError_eq_error_iff.1 hfailure
    rfl

/-- A run whose cache file exists ends as reading this file does. -/
theorem result_survey_of_exists (hpath : c.cacheFile = some path)
    (hexists : ws.pathExists path.text = .ok true) :
    (Run.survey ws c).result = ws.loadCache path := by
  have hcached : ws.cached? c = (ws.loadCache path).map some := by
    rw [Workspace.cached?, hpath]
    simp only [hexists]
  rw [Run.survey, hcached]
  cases ws.loadCache path <;> rfl

end

/-! ## Runs -/

/-- **Invalid files are blamed on the configuration iff they hold a text.**  A
  configuration file sets a layer, or the configuration is blamed, iff its path can be
  asked for and it holds no bytes but those of a text.  A run whose cache file exists
  ends with a survey, or blames the configuration, iff it is a file that holds the bytes
  of a text. -/
theorem invalid_files_blamed_iff (ws : Workspace) (path : Path) :
    (BlamesOnlyConfiguration (Config.load ws path) ↔
      path.NoNull ∧ ∀ bytes, ws.bytes path.text = .ok bytes → ∃ text, bytes = Utf8.encode text) ∧
    ∀ c : Config, c.cacheFile = some path → ws.pathExists path.text = .ok true →
      (BlamesOnlyConfiguration (Run.survey ws c).result ↔
        ∃ text, ws.bytes path.text = .ok (Utf8.encode text)) := by
  refine ⟨blamesOnly_load_iff ws path, fun c hpath hexists => ?_⟩
  rw [result_survey_of_exists hpath hexists]
  exact blamesOnly_loadCache_iff hexists

/-- A file that holds a single byte. -/
def singleByte (b : UInt8) : Workspace := ⟨OrderedMap.ofList [(["k"], .file [b])]⟩

/-- The digit that a file holds is no survey: the configuration is blamed. -/
theorem invalid_files_blamed_digit :
    (singleByte 0x30).pathExists (Path.text ⟨0, ["k"]⟩) = .ok true ∧
      (∀ s,
        (Run.survey (singleByte 0x30) (Config.ofLanguage .c (some ⟨0, ["k"]⟩))).result ≠ .ok s) ∧
      BlamesOnlyConfiguration
        (Run.survey (singleByte 0x30) (Config.ofLanguage .c (some ⟨0, ["k"]⟩))).result := by
  have hexists : (singleByte 0x30).pathExists (Path.text ⟨0, ["k"]⟩) = .ok true := rfl
  have hbytes : (singleByte 0x30).bytes (Path.text ⟨0, ["k"]⟩) = .ok (Utf8.encode ['0']) := rfl
  refine ⟨hexists, ?_, ((invalid_files_blamed_iff _ _).2 _ rfl hexists).2 ⟨_, hbytes⟩⟩
  have hresult : (Run.survey (singleByte 0x30) (Config.ofLanguage .c (some ⟨0, ["k"]⟩))).result =
      .error (.invalidCache "k" [⟨.object, []⟩]) := rfl
  intro s hs
  rw [hresult] at hs
  cases hs

/-- A byte that starts no character ends both with the fault of the byte. -/
theorem undecodable_file_escapes :
    ∃ failure : Failure, failure.isOfConfiguration = false ∧
      Config.load (singleByte 0xFF) ⟨0, ["k"]⟩ = .error failure ∧
      (singleByte 0xFF).pathExists (Path.text ⟨0, ["k"]⟩) = .ok true ∧
      (Run.survey (singleByte 0xFF) (Config.ofLanguage .c (some ⟨0, ["k"]⟩))).result =
        .error failure := by
  refine ⟨.file (.undecodable ⟨0, 1, 0xFF, .invalidStart⟩), rfl, rfl, rfl, rfl⟩

end DepGraph
