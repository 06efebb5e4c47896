/-
  DepGraph — JSON values as literals.

  Where a name is expected and a file holds another value, the literal of that
  value is the name: `None`, `True`, `1.5`, `['x', None]`, `{'k': 'v'}`.

  * `Json.literal`: the literal, strings quoted.
  * `Json.nameText`: a string as it is, any other value as its literal.
-/
import DepGraph.Json.Basic
import DepGraph.Text.Quoted

namespace DepGraph.Json

open DepGraph.Text

mutual

/-- A value as a literal. -/
def literal : Json → String
  | .null => "None"
  | .bool b => if b then "True" else "False"
  | .int n => toString n
  | .float x => x.text
  | .string s => quoted s
  | .array items => "[" ++ String.intercalate ", " (itemLiterals items) ++ "]"
  | .object members => "\x7b" ++ String.intercalate ", " (memberLiterals members) ++ "\x7d"

/-- The literals of values. -/
def itemLiterals : List Json → List String
  | [] => []
  | v :: rest => v.literal :: itemLiterals rest

/-- The literals of members. -/
def memberLiterals : List (String × Json) → List String
  | [] => []
  | (k, v) :: rest => (quoted k ++ ": " ++ v.literal) :: memberLiterals rest

end

/-- The name that a value stands for. -/
def nameText : Json → String
  | .string s => s
  | v => v.literal

end DepGraph.Json
