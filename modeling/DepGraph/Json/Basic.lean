/-
  DepGraph — JSON values.

  Objects keep their members in the order in which they were written; integers
  are kept apart from floating-point numbers.

  * `Json`: the values.
  * `Json.settled`: of members with the same key the last value counts, in the
    place of the first one.
  * `Json.member?`: a member of an object.
  * `Json.isTruthy`: a value that counts as "yes": not null, false, zero or
    empty.
  * `Json.nesting`: how deep containers that hold something lie within each
    other.
-/
import DepGraph.Decimal.Binary
import DepGraph.OrderedMap

namespace DepGraph

open DepGraph.Decimal

/-- A JSON value. -/
inductive Json
  | null
  | bool (b : Bool)
  | int (n : Int)
  | float (x : Binary)
  | string (s : String)
  | array (items : List Json)
  | object (members : List (String × Json))
  deriving Repr, Inhabited

namespace Json

/-- The members of an object as a map; a later value replaces an earlier one in
  place. -/
def memberMap (members : List (String × Json)) : OrderedMap String Json :=
  OrderedMap.ofList members

mutual

/-- A value in whose objects every key occurs once. -/
def settled : Json → Json
  | .array items => .array (settledItems items)
  | .object members => .object (memberMap (settledMembers members)).entries
  | v => v

/-- The settled values of a list. -/
def settledItems : List Json → List Json
  | [] => []
  | v :: rest => v.settled :: settledItems rest

/-- Members with settled values. -/
def settledMembers : List (String × Json) → List (String × Json)
  | [] => []
  | (k, v) :: rest => (k, v.settled) :: settledMembers rest

end

mutual

/-- How deep containers that hold something lie within each other. -/
def nesting : Json → Nat
  | .array (v :: rest) => 1 + max v.nesting (itemsNesting rest)
  | .object ((_, v) :: rest) => 1 + max v.nesting (membersNesting rest)
  | _ => 0

/-- The deepest nesting in a list of values. -/
def itemsNesting : List Json → Nat
  | [] => 0
  | v :: rest => max v.nesting (itemsNesting rest)

/-- The deepest nesting in a list of members. -/
def membersNesting : List (String × Json) → Nat
  | [] => 0
  | (_, v) :: rest => max v.nesting (membersNesting rest)

end

/-- The value of a member of an object; of several with one key, the last. -/
def member? (key : String) : Json → Option Json
  | .object members => (members.reverse.find? (·.1 == key)).map (·.2)
  | _ => none

/-- A value that counts as "yes". -/
def isTruthy : Json → Bool
  | .null => false
  | .bool b => b
  | .int n => n != 0
  | .float x => !x.isZero
  | .string s => s != ""
  | .array items => !items.isEmpty
  | .object members => !members.isEmpty

/-- The text of a string value. -/
def string? : Json → Option String
  | .string s => some s
  | _ => none

/-- The members of an object. -/
def object? : Json → Option (List (String × Json))
  | .object members => some members
  | _ => none

/-- An array of strings. -/
def ofStrings (names : List String) : Json := .array (names.map .string)

end Json

end DepGraph
