/-
  DepGraph — configuration files.

  A configuration file is a JSON object.  Its keys are the names of settings, in
  either spelling; where it has both, the one with capitals counts, and the other
  is a key that is not known.  A null leaves a setting unset.

  * `layerOfText`: the layer that the text of a file sets, or all that is wrong
    with it.
-/
import DepGraph.Json.Checked
import DepGraph.Json.Reader
import DepGraph.Settings.Basic

namespace DepGraph

open DepGraph.Json

/-- The deepest nesting of a file that is checked against a shape. -/
def nestingLimit : Nat := 200

/-- The value of a text that is to be checked against a shape. -/
def readForCheck (text : List Char) : Checked Json :=
  match Json.read? text with
  | some v => if nestingLimit < v.nesting then .refuse .notJson else .ok v
  | none => .refuse .notJson

/-- A depth: a text, or a whole number that stands for its text. -/
def checkDepth : Json → Checked String
  | .string s => .ok s
  | v =>
    match checkInt v with
    | .ok n => .ok (toString n)
    | .error issues =>
      .error (⟨.string, ["str"]⟩ :: issues.map fun i => { i with way := "int" :: i.way })

/-- A value of a kind. -/
def checkKind (v : Json) : SettingKind → Checked Value
  | .text => (checkString v).map fun s => .json (.string s)
  | .texts => (checkList checkString v).map fun l => .json (.ofStrings l)
  | .flag => (checkBool v).map fun b => .json (.bool b)
  | .path => (checkString v).map fun s => .path (Path.ofText s)
  | .depth => (checkDepth v).map fun s => .json (.string s)
  | .options => (checkObject v).map fun m => .json (.object m.entries)

/-- The key by which a file sets a setting, if it does. -/
def keyOf? (file : Json) (s : Setting) : Option String :=
  if (file.member? s.camelName).isSome then some s.camelName
  else if (file.member? s.name).isSome then some s.name
  else none

/-- The value that a file gives to a setting, if it gives one. -/
def checkSetting (file : Json) (s : Setting) : Checked (Option (String × Value)) :=
  match (keyOf? file s).map fun key => (key, (file.member? key).getD .null) with
  | none | some (_, .null) => .ok none
  | some (key, v) => ((checkKind v s.kind).under key).map fun value => some (s.name, value)

/-- The keys of a file that set nothing. -/
def unknownKeys (file : Json) : List String :=
  let known := Setting.all.filterMap (keyOf? file)
  ((file.object?.getD []).map (·.1)).eraseDups.filter (· ∉ known)

/-- The layer that a file sets. -/
def layerOf (file : Json) : Checked Layer :=
  match file with
  | .object _ =>
    let unknown : List (Checked Unit) := (unknownKeys file).map fun key =>
      .error [⟨.unknownKey, [key]⟩]
    (Checked.both (Checked.all (Setting.all.map (checkSetting file))) (Checked.all unknown)).map
      fun (values, _) => OrderedMap.ofList (values.filterMap id)
  | _ => .refuse .object

/-- The layer that the text of a file sets. -/
def layerOfText (text : List Char) : Checked Layer := (readForCheck text).bind layerOf

end DepGraph
