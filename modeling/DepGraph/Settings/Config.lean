/-
  DepGraph — the configuration of a run.

  The values of all settings, each as what it is used for.  A flag is on if its
  value says so; a file that is named by nothing or by the empty text is none.

  * `Config`: the configuration.
  * `Config.ofSettings`: the configuration of the values of all settings.
  * `Config.load`: the layer that a configuration file sets.
-/
import DepGraph.Failure
import DepGraph.Json.Literal
import DepGraph.Settings.File
import DepGraph.Settings.Text

namespace DepGraph

open DepGraph.Json

/-- What a run is told. -/
structure Config where
  target : Path
  language : String
  inputFilters : List String
  pathMapping : List String
  skipAuxiliary : Bool
  excludeExternal : Bool
  resultFilters : List String
  rootFilters : List String
  start : String
  /-- The depths: a text, or a value that stands for one. -/
  depth : Json
  byPaths : Bool
  strict : Bool
  options : OrderedMap String Json
  outputFormat : String
  outputFile : Option Path
  cacheFile : Option Path

namespace Value

/-- A value that counts as "yes". -/
def isOn : Value → Bool
  | .json v => v.isTruthy
  | .path _ => true

/-- A value as a text. -/
def text : Value → String
  | .json v => v.nameText
  | .path p => p.text

/-- A value as a text, which is empty for a value that counts as "no". -/
def textIfOn (v : Value) : String := if v.isOn then v.text else ""

/-- The texts of a list; those of a text are its characters. -/
def texts : Value → List String
  | .json (.array items) => items.map Json.nameText
  | .json (.string s) => s.toList.map String.singleton
  | _ => []

/-- A value as JSON, a path as its text. -/
def toJson : Value → Json
  | .json v => v
  | .path p => .string p.text

/-- The path that a value names. -/
def toPath : Value → Path
  | .path p => p
  | v => Path.ofText v.text

/-- The file that a value names, if it names one. -/
def file? (v : Value) : Option Path := if v.isOn then some v.toPath else none

/-- The values by name of a map. -/
def options : Value → OrderedMap String Json
  | .json (.object members) => Json.memberMap members
  | _ => ∅

end Value

/-- The depths that a value asks for; one that counts as "no" asks for none. -/
def depthsOf (v : Json) : Except Failure Depths :=
  match readDepths (Value.json v).textIfOn with
  | some depths => .ok depths
  | none => .error (.invalidDepth v.literal)

namespace Config

/-- The configuration of the values of all settings. -/
def ofSettings (s : Settings) : Config where
  target := (s .target).toPath
  language := (s .language).text
  inputFilters := (s .inputFilters).texts
  pathMapping := (s .pathMapping).texts
  skipAuxiliary := (s .skipAuxiliary).isOn
  excludeExternal := (s .excludeExternal).isOn
  resultFilters := (s .resultFilters).texts
  rootFilters := (s .rootFilters).texts
  start := (s .start).textIfOn
  depth := (s .depth).toJson
  byPaths := (s .byPaths).isOn
  strict := (s .strict).isOn
  options := (s .languageOptions).options
  outputFormat := (s .outputFormat).text
  outputFile := (s .outputFile).file?
  cacheFile := (s .cacheFile).file?

/-- The configuration of a layer. -/
def ofLayer (l : Layer) : Except Failure Config :=
  (l.settings.mapError .layer).map ofSettings

/-- The layer that a configuration file sets. -/
def load (ws : Workspace) (path : Path) : Except Failure Layer :=
  match ws.readText path.text with
  | .ok text => (layerOfText text).mapError (.invalidConfig path.text)
  | .error (.fault cause place) => .error (.unreadableConfig cause place)
  | .error e => .error (.file e)

/-- The mapping rules of a configuration. -/
def mappingRules (c : Config) : Except Failure (List MappingRule) :=
  (readMapping c.pathMapping).mapError .invalidMapping

/-- What the stages from a survey to a graph are told. -/
def diagramOptions (c : Config) : Except Failure DiagramOptions := do
  let depths ← depthsOf c.depth
  let results ← filterOf c.resultFilters
  let roots ← filterOf c.rootFilters
  return { excludeExternal := c.excludeExternal, results, roots, start := c.start, depths
           byPaths := c.byPaths }

end Config

end DepGraph
