/-
  DepGraph — writing JSON.

  * `Spacing`: no blanks, one blank after each comma and colon, or one member a
    line, indented.  An empty container is written without blanks.
  * `Style`: the spacing, and whether characters outside printable ASCII are
    escaped (those above `U+FFFF` as a surrogate pair).
  * `Json.render`: the text of a value.
-/
import DepGraph.Json.Basic
import DepGraph.Text.Quoted

namespace DepGraph.Json

open DepGraph.Text

/-- Where blanks stand between tokens. -/
inductive Spacing
  | compact
  | spaced
  | indented (width : Nat)
  deriving DecidableEq, Repr

/-- How a value is written. -/
structure Style where
  spacing : Spacing
  /-- Escape every character that is not printable ASCII. -/
  asciiOnly : Bool
  deriving DecidableEq, Repr

/-- An escape of four digits in base sixteen. -/
def unicodeEscape (n : Nat) : List Char := '\\' :: 'u' :: hexDigits 4 n

/-- A character of a string. -/
def escapedChar (asciiOnly : Bool) (c : Char) : List Char :=
  match c with
  | '"' => ['\\', '"']
  | '\\' => ['\\', '\\']
  | '\n' => ['\\', 'n']
  | '\r' => ['\\', 'r']
  | '\t' => ['\\', 't']
  | '\x08' => ['\\', 'b']
  | '\x0c' => ['\\', 'f']
  | c =>
    let n := c.toNat
    if n < 0x20 then unicodeEscape n
    else if asciiOnly && 0x7F ≤ n then
      if n < 0x10000 then unicodeEscape n
      else
        unicodeEscape (0xD800 + (n - 0x10000) / 0x400) ++
          unicodeEscape (0xDC00 + (n - 0x10000) % 0x400)
    else [c]

/-- A string between its quotes. -/
def renderString (asciiOnly : Bool) (s : String) : List Char :=
  '"' :: s.toList.flatMap (escapedChar asciiOnly) ++ ['"']

/-- What stands before the first item of a container at a depth. -/
def Spacing.opening (sp : Spacing) (depth : Nat) : List Char :=
  match sp with
  | .indented width => '\n' :: List.replicate (width * (depth + 1)) ' '
  | _ => []

/-- What stands between two items of a container at a depth. -/
def Spacing.between (sp : Spacing) (depth : Nat) : List Char :=
  match sp with
  | .compact => [',']
  | .spaced => [',', ' ']
  | .indented width => ',' :: '\n' :: List.replicate (width * (depth + 1)) ' '

/-- What stands after the last item of a container at a depth. -/
def Spacing.closing (sp : Spacing) (depth : Nat) : List Char :=
  match sp with
  | .indented width => '\n' :: List.replicate (width * depth) ' '
  | _ => []

/-- What stands between a key and its value. -/
def Spacing.colon : Spacing → List Char
  | .compact => [':']
  | _ => [':', ' ']

/-- The text of a number; what no decimal writes has a name. -/
def renderFloat : Decimal.Binary → List Char
  | .notANumber => "NaN".toList
  | .infinite negative => if negative then "-Infinity".toList else "Infinity".toList
  | x => x.text.toList

mutual

/-- The text of a value at a depth. -/
def renderAt (st : Style) (depth : Nat) : Json → List Char
  | .null => "null".toList
  | .bool b => if b then "true".toList else "false".toList
  | .int n => (toString n).toList
  | .float x => renderFloat x
  | .string s => renderString st.asciiOnly s
  | .array [] => ['[', ']']
  | .array (v :: rest) =>
    '[' :: st.spacing.opening depth ++ renderAt st (depth + 1) v ++ renderItems st depth rest ++
      st.spacing.closing depth ++ [']']
  | .object [] => ['{', '}']
  | .object ((k, v) :: rest) =>
    '{' :: st.spacing.opening depth ++ renderString st.asciiOnly k ++ st.spacing.colon ++
      renderAt st (depth + 1) v ++ renderMembers st depth rest ++ st.spacing.closing depth ++ ['}']

/-- The later items of an array at a depth. -/
def renderItems (st : Style) (depth : Nat) : List Json → List Char
  | [] => []
  | v :: rest =>
    st.spacing.between depth ++ renderAt st (depth + 1) v ++ renderItems st depth rest

/-- The later members of an object at a depth. -/
def renderMembers (st : Style) (depth : Nat) : List (String × Json) → List Char
  | [] => []
  | (k, v) :: rest =>
    st.spacing.between depth ++ renderString st.asciiOnly k ++ st.spacing.colon ++
      renderAt st (depth + 1) v ++ renderMembers st depth rest

end

/-- The text of a value. -/
def render (st : Style) (v : Json) : String := String.ofList (renderAt st 0 v)

end DepGraph.Json
