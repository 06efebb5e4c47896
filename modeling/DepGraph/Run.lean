/-
  DepGraph — runs.

  A run finds the survey of its target, from the cache file if there is one, and
  makes the graph that is asked for.  Whether it succeeds or not, it leaves a
  workspace behind, in which the cache file may be new, and it has reported its
  progress.

  * `Run`: what a run leaves behind, and how it ended.
  * `Run.survey`: the run up to the survey.
  * `Run.diagram`: the run up to the graph.
-/
import DepGraph.Graph.Cycle
import DepGraph.Progress
import DepGraph.Survey.Json
import DepGraph.Survey.Scan

namespace DepGraph

open DepGraph.Json

/-- What a run leaves behind, and how it ended. -/
structure Run (α : Type) where
  workspace : Workspace
  progress : List Progress
  result : Except Failure α

/-! ## The cache file -/

/-- How a survey is written to a cache file. -/
def cacheStyle : Style := ⟨.indented 2, false⟩

/-- The survey that the text of a cache file holds. -/
def readCache (text : List Char) : Checked Survey := (readForCheck text).bind Survey.ofJson

/-- The text of the cache file of a survey. -/
def cacheText (s : Survey) : String := s.toJson.render cacheStyle

namespace Workspace

/-- The survey of an existing cache file. -/
def loadCache (ws : Workspace) (path : Path) : Except Failure Survey := do
  let text ← (ws.readText path.text).mapError .file
  (readCache text).mapError (.invalidCache path.text)

/-- The survey of the cache file of a configuration, if it has one that exists. -/
def cached? (ws : Workspace) (c : Config) : Except Failure (Option Survey) :=
  match c.cacheFile with
  | none => .ok none
  | some path =>
    match ws.pathExists path.text with
    | .error cause => .error (.file (.fault cause path.text))
    | .ok false => .ok none
    | .ok true => (ws.loadCache path).map some

/-- Write the cache file of a configuration, if it has one. -/
def storeCache (ws : Workspace) (c : Config) (s : Survey) : Except Failure Workspace :=
  match c.cacheFile with
  | none => .ok ws
  | some path => (ws.writeText path.text (cacheText s)).mapError .file

/-- The number of files of a target, and their survey. -/
def surveyTarget (ws : Workspace) (c : Config) : Except Failure (Nat × Survey) := do
  let language ← languageOf c.language
  let target ← ws.discover c language
  let rules ← c.mappingRules
  let resolver := target.resolver language c.strict rules
  return (target.files.length,
    target.survey ws language resolver (ScanOptions.ofValues c.options))

end Workspace

namespace Run

/-- The name of the stage that scans files. -/
def scanStage : String := "Parsing"

/-- The name of the stage that makes the graph. -/
def graphStage : String := "Normalizing"

/-- A run that finds the survey of a target, and keeps it in the cache file. -/
def survey (ws : Workspace) (c : Config) : Run Survey :=
  match ws.cached? c with
  | .error failure => ⟨ws, [], .error failure⟩
  | .ok (some s) => ⟨ws, [], .ok s⟩
  | .ok none =>
    match ws.surveyTarget c with
    | .error failure => ⟨ws, [], .error failure⟩
    | .ok (count, s) =>
      let progress := Meter.reports scanStage count
      match ws.storeCache c s with
      | .error failure => ⟨ws, progress, .error failure⟩
      | .ok after => ⟨after, progress, .ok s⟩

/-- A run that makes the graph of a target. -/
def diagram (ws : Workspace) (c : Config) : Run Diagram :=
  match c.diagramOptions with
  | .error failure => ⟨ws, [], .error failure⟩
  | .ok options =>
    let found := survey ws c
    match found.result with
    | .error failure => ⟨found.workspace, found.progress, .error failure⟩
    | .ok s =>
      let begun := found.progress ++ [⟨graphStage, 0, 1⟩]
      match diagramOf s options with
      | .error failure => ⟨found.workspace, begun, .error failure⟩
      | .ok d => ⟨found.workspace, begun ++ [⟨graphStage, 1, 1⟩], .ok d⟩

end Run

/-- The cycles of a graph. -/
def Diagram.cycles (d : Diagram) : List (List String) := Cycle.findCycles d.edges

end DepGraph
