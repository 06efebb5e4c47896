/-
  DepGraph — lines.

  A line ends at any of ten boundaries: line feed, carriage return (a carriage
  return with a line feed after it is one boundary), vertical tab, form feed,
  the separators `U+001C` to `U+001E`, next line, and the two separators
  `U+2028` and `U+2029`.

  * `lines`: the lines of a text, without their boundaries.  A boundary at the
    end opens no further line.
  * `foldNewlines`: each carriage return, with the line feed after it if there
    is one, becomes one line feed.
-/

namespace DepGraph.Text

/-- The characters that end a line. -/
def isLineBoundary (c : Char) : Bool :=
  let n := c.toNat
  (10 ≤ n && n ≤ 13) || (28 ≤ n && n ≤ 30) || n == 0x85 || n == 0x2028 || n == 0x2029

/-- Put a character in front of the first line. -/
def consLine (c : Char) : List (List Char) → List (List Char)
  | [] => [[c]]
  | l :: rest => (c :: l) :: rest

/-- The lines of a text, without their boundaries. -/
def lines : List Char → List (List Char)
  | [] => []
  | '\r' :: '\n' :: rest => [] :: lines rest
  | c :: rest => if isLineBoundary c then [] :: lines rest else consLine c (lines rest)

/-- Write every line end as one line feed. -/
def foldNewlines : List Char → List Char
  | [] => []
  | '\r' :: '\n' :: rest => '\n' :: foldNewlines rest
  | '\r' :: rest => '\n' :: foldNewlines rest
  | c :: rest => c :: foldNewlines rest

/-- The lines of a text. -/
def linesOf (s : String) : List String := (lines s.toList).map String.ofList

end DepGraph.Text
