/-
  DepGraph — settings that are written as short texts.

  * `readDepths`: `N` or `N,M`, the depths of names within the tree and outside.
  * `readMapping`: texts `FROM=TO`; a name that starts with `FROM` is another
    name for the one that starts with `TO`.
  * `readOptions`: texts `KEY=VALUE`, or `KEY` for an option that is on.
-/
import DepGraph.Decimal.Integer
import DepGraph.Graph.Shorten
import DepGraph.Json.Checked
import DepGraph.Json.Reader
import DepGraph.Text.Blank

namespace DepGraph

open DepGraph.Decimal DepGraph.Text

/-- What stands before the first equals sign of a text and what stands after it,
  if there is one. -/
def cutAtEquals (s : String) : String × Option String :=
  let before := s.toList.takeWhile (· != '=')
  match s.toList.drop before.length with
  | [] => (s, none)
  | _ :: after => (String.ofList before, some (String.ofList after))

/-- The depths that a text asks for; the empty text asks for none. -/
def readDepths (spec : String) : Option Depths :=
  if spec = "" then some ⟨0, 0⟩
  else do
    let numbers ← (segments [','] spec.toList).mapM fun part => readInteger? (trim part)
    guard (numbers.all (0 ≤ ·))
    match numbers with
    | [inside] => some ⟨inside, 0⟩
    | [inside, outside] => some ⟨inside, outside⟩
    | _ => none

/-- A rule that replaces the beginning of names. -/
structure MappingRule where
  old : String
  new : String
  deriving DecidableEq, Repr

/-- The rule of a text. -/
def readRule (text : String) : Except String MappingRule :=
  match cutAtEquals text with
  | (old, some new) => .ok ⟨old, new⟩
  | (_, none) => .error text

/-- The rules of some texts, or the first text that is no rule. -/
def readMapping (texts : List String) : Except String (List MappingRule) := texts.mapM readRule

/-- The other name that the first rule that applies gives to a name. -/
def renameBy (rules : List MappingRule) (name : String) : Option String :=
  rules.findSome? fun r => (dropPrefix? r.old name).map (r.new ++ ·)

/-- The value of an option: a truth value, a JSON value, or else the text. -/
def optionValue (text : String) : Json :=
  let word := Json.lowerAscii text
  if word ∈ ["true", "yes", "on"] then .bool true
  else if word ∈ ["false", "no", "off"] then .bool false
  else (Json.readSettled? text.toList).getD (.string text)

/-- The option of a text. -/
def readOption (text : String) : Except String (String × Json) :=
  match cutAtEquals text with
  | ("", _) => .error text
  | (key, none) => .ok (key, .bool true)
  | (key, some value) => .ok (key, optionValue value)

/-- The options of some texts, or the first text that is none.  Of equal keys the
  last value counts. -/
def readOptions (texts : List String) : Except String (OrderedMap String Json) :=
  (texts.mapM readOption).map OrderedMap.ofList

end DepGraph
