/-
  DepGraph — surveys as JSON.

  A survey is stored as an object with one member for each of its parts.  When
  it is read, an absent part is empty, further members are ignored, and of equal
  keys the last value counts.

  * `Survey.toJson`: the stored form.
  * `Survey.ofJson`: the survey of a stored form, or what is wrong with it.
-/
import DepGraph.Json.Checked
import DepGraph.Survey

namespace DepGraph

open DepGraph.Json

/-- Names with other names. -/
def namesToJson (names : OrderedMap String String) : Json :=
  .object (names.entries.map fun e => (e.1, .string e.2))

/-- Names with lists of names. -/
def dependenciesToJson (deps : Dependencies) : Json :=
  .object (deps.entries.map fun e => (e.1, .ofStrings e.2))

namespace Survey

/-- The stored form of a survey. -/
def toJson (s : Survey) : Json :=
  .object [("path_to_module", namesToJson s.moduleOf),
    ("module_to_path", namesToJson s.pathOf),
    ("path_dependencies", dependenciesToJson s.paths),
    ("module_dependencies", dependenciesToJson s.modules),
    ("module_separator", .string s.separator)]

/-- A member of a stored form; an absent one has its value. -/
def part (v : Json) (key : String) (absent : α) (check : Json → Checked α) : Checked α :=
  match v.member? key with
  | none => .ok absent
  | some v => (check v).under key

/-- The survey of a stored form. -/
def ofJson (v : Json) : Checked Survey :=
  match v with
  | .object _ =>
    Checked.map5 Survey.mk
      (part v "path_to_module" ∅ (checkMap checkString))
      (part v "module_to_path" ∅ (checkMap checkString))
      (part v "path_dependencies" ∅ (checkMap (checkList checkString)))
      (part v "module_dependencies" ∅ (checkMap (checkList checkString)))
      (part v "module_separator" "/" checkString)
  | _ => .refuse .object

end Survey

end DepGraph
