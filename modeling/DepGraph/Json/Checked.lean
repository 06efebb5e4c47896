/-
  DepGraph — checking the shape of JSON values.

  A value that comes from outside is checked against the shape that is asked
  for.  All issues are reported, each with the way that leads to it.

  * `Issue`, `IssueKind`: what is wrong, and where.
  * `Checked`: a value, or its issues.
  * `checkString`, `checkBool`, `checkList`, `checkMap`, …: the shapes.
-/
import DepGraph.Json.Basic
import DepGraph.Text.LetterCase

namespace DepGraph

namespace Json

open DepGraph.Decimal DepGraph.Text

/-- What is wrong with a value. -/
inductive IssueKind
  /-- The text is no JSON. -/
  | notJson
  /-- No object at the top of a file. -/
  | object
  /-- No object at the top of a request. -/
  | requestObject
  /-- A key that is not known. -/
  | unknownKey
  /-- A key that must be there is not. -/
  | absent
  | string
  | list
  | map
  /-- Neither a truth value nor something that may stand for one. -/
  | bool
  /-- A number or a string that stands for no truth value. -/
  | boolText
  | int
  /-- A number that is not whole. -/
  | intFraction
  /-- A whole number too large for its notation. -/
  | intSize
  /-- No finite number. -/
  | finite
  deriving DecidableEq, Repr

/-- The name of an issue in messages. -/
def IssueKind.name : IssueKind → String
  | notJson => "json_invalid"
  | object => "model_type"
  | requestObject => "model_attributes_type"
  | unknownKey => "extra_forbidden"
  | absent => "missing"
  | string => "string_type"
  | list => "list_type"
  | map => "dict_type"
  | bool => "bool_type"
  | boolText => "bool_parsing"
  | int => "int_type"
  | intFraction => "int_from_float"
  | intSize => "int_parsing_size"
  | finite => "finite_number"

/-- What is wrong with a value, and the keys and indices that lead to it. -/
structure Issue where
  kind : IssueKind
  way : List String
  deriving DecidableEq, Repr

/-- A value, or all issues that it has. -/
abbrev Checked (α : Type) := Except (List Issue) α

namespace Checked

/-- A single issue with the value itself. -/
def refuse (kind : IssueKind) : Checked α := .error [⟨kind, []⟩]

/-- Issues that lie under a key or an index. -/
def under (key : String) : Checked α → Checked α :=
  Except.mapError fun issues => issues.map fun i => { i with way := key :: i.way }

/-- Two values, or the issues of both. -/
def both : Checked α → Checked β → Checked (α × β)
  | .ok a, .ok b => .ok (a, b)
  | .error x, .ok _ => .error x
  | .ok _, .error y => .error y
  | .error x, .error y => .error (x ++ y)

/-- The values of a list, or the issues of all. -/
def all : List (Checked α) → Checked (List α)
  | [] => .ok []
  | a :: rest => (both a (all rest)).map fun (a, rest) => a :: rest

/-- A function of five values, or the issues of all. -/
def map5 (f : α → β → γ → δ → ε → ζ) (a : Checked α) (b : Checked β) (c : Checked γ)
    (d : Checked δ) (e : Checked ε) : Checked ζ :=
  (both a (both b (both c (both d e)))).map fun (a, b, c, d, e) => f a b c d e

end Checked

/-! ## Shapes -/

/-- A string. -/
def checkString : Json → Checked String
  | .string s => .ok s
  | _ => .refuse .string

/-- The words that stand for truth values, in lower case. -/
def truthWords : List (String × Bool) :=
  [("1", true), ("t", true), ("y", true), ("true", true), ("yes", true), ("on", true),
    ("0", false), ("f", false), ("n", false), ("false", false), ("no", false), ("off", false)]

/-- A text with its ASCII letters in lower case. -/
def lowerAscii (s : String) : String :=
  String.ofList (s.toList.map fun c => Char.ofNat (asciiLower c.toNat))

/-- The bound of whole numbers in the notation of machines. -/
def wordBound : Int := Int.pow 2 63

/-- A whole number that a machine word holds. -/
def isWord (n : Int) : Bool := -wordBound ≤ n && n < wordBound

/-- The truth value that a whole number stands for. -/
def boolOfInt (n : Int) : Checked Bool :=
  if n = 0 then .ok false else if n = 1 then .ok true
  else if isWord n then .refuse .boolText else .refuse .bool

/-- A truth value: itself, zero or one, or a word for it. -/
def checkBool : Json → Checked Bool
  | .bool b => .ok b
  | .int n => boolOfInt n
  | .float x =>
    match x.toInt? with
    | some n => boolOfInt n
    | none => .refuse .bool
  | .string s =>
    match truthWords.find? (·.1 == lowerAscii s) with
    | some (_, b) => .ok b
    | none => .refuse .boolText
  | _ => .refuse .bool

/-- A whole number. -/
def checkInt : Json → Checked Int
  | .bool b => .ok (if b then 1 else 0)
  | .int n => .ok n
  | .float x =>
    match x, x.toInt? with
    | .finite .., some n => if isWord n then .ok n else .refuse .intSize
    | .finite .., none => .refuse .intFraction
    | _, _ => .refuse .finite
  | _ => .refuse .int

/-- An array of values of a shape. -/
def checkList (check : Json → Checked α) : Json → Checked (List α)
  | .array items => Checked.all (items.zipIdx.map fun (v, i) => (check v).under (toString i))
  | _ => .refuse .list

/-- An object whose members have a shape; of equal keys the last value counts. -/
def checkMap (check : Json → Checked α) : Json → Checked (OrderedMap String α)
  | .object members =>
    (Checked.all (members.map fun (k, v) => ((check v).under k).map (k, ·))).map OrderedMap.ofList
  | _ => .refuse .map

/-- An object with any members. -/
def checkObject : Json → Checked (OrderedMap String Json)
  | .object members => .ok (memberMap (settledMembers members))
  | _ => .refuse .map

end Json

end DepGraph
