/-
  DepGraph — settings.

  A run is configured by settings, each with a name, a kind of value and a
  default.  Values come in layers: what a configuration file sets lies below
  what is given explicitly.

  * `Setting`, `SettingKind`: the settings and the kinds of their values.
  * `Value`: a value of a setting.
  * `Layer`: values by the names of settings.
  * `Layer.cover`: one layer laid over another; values that say nothing are left
    out.
  * `Settings`: the value of every setting; `Layer.settings` gives those of a
    layer, and the defaults of the others.
-/
import DepGraph.Json.Basic
import DepGraph.Path.Basic

namespace DepGraph

/-- The settings of a run. -/
inductive Setting
  | target
  | language
  | inputFilters
  | pathMapping
  | skipAuxiliary
  | excludeExternal
  | resultFilters
  | rootFilters
  | start
  | depth
  | byPaths
  | strict
  | languageOptions
  | outputFormat
  | outputFile
  | cacheFile
  | debug
  deriving DecidableEq, Repr

/-- What a setting holds. -/
inductive SettingKind
  | text
  | texts
  | flag
  | path
  /-- A text, or a whole number that stands for its text. -/
  | depth
  /-- Values by name. -/
  | options
  deriving DecidableEq, Repr

namespace Setting

/-- All settings, in the order in which they are kept. -/
def all : List Setting :=
  [target, language, inputFilters, pathMapping, skipAuxiliary, excludeExternal, resultFilters,
    rootFilters, start, depth, byPaths, strict, languageOptions, outputFormat, outputFile,
    cacheFile, debug]

/-- The name of a setting, its words joined by underscores. -/
def name : Setting → String
  | target => "target"
  | language => "language"
  | inputFilters => "input_filters"
  | pathMapping => "input_path_mapping"
  | skipAuxiliary => "exclude_well_known_folders"
  | excludeExternal => "exclude_external"
  | resultFilters => "result_filters"
  | rootFilters => "root_filters"
  | start => "prefix"
  | depth => "depth"
  | byPaths => "force_path_dependency"
  | strict => "strict_matching"
  | languageOptions => "language_options"
  | outputFormat => "output_format"
  | outputFile => "output_file"
  | cacheFile => "cache_file"
  | debug => "debug"

/-- The name of a setting with capitals in place of underscores. -/
def camelName : Setting → String
  | inputFilters => "inputFilters"
  | pathMapping => "inputPathMapping"
  | skipAuxiliary => "excludeWellKnownFolders"
  | excludeExternal => "excludeExternal"
  | resultFilters => "resultFilters"
  | rootFilters => "rootFilters"
  | byPaths => "forcePathDependency"
  | strict => "strictMatching"
  | languageOptions => "languageOptions"
  | outputFormat => "outputFormat"
  | outputFile => "outputFile"
  | cacheFile => "cacheFile"
  | s => s.name

/-- The setting of a name. -/
def ofName? (s : String) : Option Setting := all.find? (·.name == s)

/-- What a setting holds. -/
def kind : Setting → SettingKind
  | target | outputFile | cacheFile => .path
  | language | start | outputFormat => .text
  | inputFilters | pathMapping | resultFilters | rootFilters => .texts
  | skipAuxiliary | excludeExternal | byPaths | strict | debug => .flag
  | depth => .depth
  | languageOptions => .options

end Setting

/-- A value of a setting. -/
inductive Value
  | json (v : Json)
  | path (p : Path)

instance : Inhabited Value := ⟨.json .null⟩

/-- The value of a setting that is not set. -/
def Setting.default : Setting → Value
  | target => .path ⟨0, []⟩
  | language => .json (.string "typescript")
  | outputFormat => .json (.string "plain")
  | start | depth => .json (.string "")
  | inputFilters | pathMapping | resultFilters | rootFilters => .json (.array [])
  | skipAuxiliary => .json (.bool true)
  | excludeExternal | byPaths | strict | debug => .json (.bool false)
  | languageOptions => .json (.object [])
  | outputFile | cacheFile => .json .null

/-- Values by the names of settings. -/
abbrev Layer := OrderedMap String Value

/-- The value of every setting. -/
abbrev Settings := Setting → Value

/-- A value says something: it is not null, and no empty list or map. -/
def Value.isGiven : Value → Bool
  | .json .null | .json (.array []) | .json (.object []) => false
  | _ => true

/-- Why a layer sets no settings. -/
inductive LayerFault
  | unknownName (name : String)
  /-- The name that stands for the settings themselves. -/
  | reservedName
  deriving DecidableEq, Repr

/-- The name that stands for the settings themselves. -/
def reservedName : String := "self"

namespace Layer

/-- Lay values over a layer, those that say something. -/
def cover (below above : Layer) : Layer := below.overlay (above.filter fun _ v => v.isGiven)

/-- What is wrong with a name. -/
def nameFault? (name : String) : Option LayerFault :=
  if name = reservedName then some .reservedName
  else if (Setting.ofName? name).isNone then some (.unknownName name)
  else none

/-- The settings that a layer sets, and the defaults of the others. -/
def settings (layer : Layer) : Except LayerFault Settings :=
  match layer.keys.findSome? nameFault? with
  | some fault => .error fault
  | none => .ok fun s => layer.getD s.name s.default

end Layer

end DepGraph
