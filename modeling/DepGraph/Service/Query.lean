/-
  DepGraph — what is asked of the service.

  The body of a request is an object.  It names the path of the target and may
  give settings by their names; further members are ignored, and a null is no
  value.

  * `Query`: the path of a target, the settings, and the format to write.
  * `Query.ofBody`: the query of a body, or all that is wrong with it.
-/
import DepGraph.Settings.File

namespace DepGraph

open DepGraph.Json

/-- What is asked of the service. -/
structure Query where
  path : String
  layer : Layer
  format : String

namespace Query

/-- The settings that a body may give. -/
def settings : List Setting :=
  [.language, .inputFilters, .pathMapping, .excludeExternal, .resultFilters, .rootFilters, .start,
    .depth, .byPaths, .languageOptions]

/-- What a body gives for a setting: a depth is always a text. -/
def kindOf (s : Setting) : SettingKind := if s = .depth then .text else s.kind

/-- The value that a body gives to a setting, if it gives one. -/
def readSetting (body : Json) (s : Setting) : Checked (Option (String × Value)) :=
  match body.member? s.name with
  | none => .ok none
  | some v => ((checkKind v (kindOf s)).under s.name).map fun value => some (s.name, value)

/-- The path that a body names. -/
def readPath (body : Json) : Checked String :=
  match body.member? "path" with
  | none => .error [⟨.absent, ["path"]⟩]
  | some v => (checkString v).under "path"

/-- The format that a body asks for. -/
def readFormat (body : Json) : Checked String :=
  match body.member? "format" with
  | none => .ok "plain"
  | some v => (checkString v).under "format"

/-- The members of a body. -/
def ofMembers (withFormat : Bool) (body : Json) : Checked Query :=
  let format := if withFormat then readFormat body else .ok "plain"
  let layer := Checked.all (settings.map (readSetting body))
  (Checked.both (readPath body) (Checked.both layer format)).map fun (path, values, format) =>
    ⟨path, OrderedMap.ofList (values.filterMap id), format⟩

/-- The query of a body. -/
def ofBody (withFormat : Bool) (body : Json) : Checked Query :=
  Checked.under "body" (match body with
    | .object _ => ofMembers withFormat body
    | _ => .refuse .requestObject)

end Query

end DepGraph
