/-
  DepGraph — dependencies stated outright.

  A JSON object states dependencies: each member that is an array lists what its
  key depends on.  Members of other kinds, and files that hold no object, state
  nothing.

  * `scanRaw`: the report of a file.
-/
import DepGraph.Json.Literal
import DepGraph.Json.Reader
import DepGraph.Report

namespace DepGraph

/-- The dependencies that a member states. -/
def statedBy (member : String × Json) : Option (String × List String) :=
  match member.2 with
  | .array items => some (member.1, items.map Json.nameText)
  | _ => none

/-- The report of a file. -/
def scanRaw (text : List Char) : Report :=
  match Json.readSettled? text with
  | some (.object members) => ⟨none, [], OrderedMap.ofList (members.filterMap statedBy)⟩
  | _ => .empty

end DepGraph
