/-
  DepGraph — patterns for directory names.

  `*` stands for any text, `?` for any character, `[…]` for one character of a
  set and `[!…]` for one outside it.  Within a set `a-z` is a range; a range
  whose ends are out of order holds nothing.  A bracket without its partner
  stands for itself.

  * `Glob.parse`: the pattern of a text.
  * `Glob.accepts`: a whole name fits a pattern.
-/

namespace DepGraph.Text

/-- What one character of a set pattern ranges over. -/
structure GlobRange where
  first : Char
  last : Char
  deriving DecidableEq, Repr

/-- A part of a pattern. -/
inductive GlobToken
  | anyText
  | anyChar
  | char (c : Char)
  | set (negated : Bool) (ranges : List GlobRange)
  deriving DecidableEq, Repr

namespace Glob

/-- Cut the content of a bracket at the hyphens that make ranges: the first one
  not before `skip` characters, and then none directly after a range. -/
def chunksFrom : Nat → List Char → List Char → List (List Char)
  | _, chunk, [] => [chunk.reverse]
  | skip + 1, chunk, c :: rest => chunksFrom skip (c :: chunk) rest
  | 0, chunk, c :: rest =>
    if c == '-' then chunk.reverse :: chunksFrom 2 [] rest else chunksFrom 0 (c :: chunk) rest

/-- A hyphen at the end makes no range. -/
def closeChunks : List (List Char) → List (List Char)
  | [] => []
  | [chunk] => [chunk]
  | [chunk, []] => [chunk ++ ['-']]
  | chunk :: rest => chunk :: closeChunks rest

/-- Leave out the ranges whose ends are out of order, from the last one on. -/
def dropEmptyRanges : List (List Char) → List (List Char)
  | [] => []
  | chunk :: rest =>
    match dropEmptyRanges rest with
    | [] => [chunk]
    | next :: more =>
      match chunk.getLast?, next.head? with
      | some a, some b =>
        if b < a then (chunk.dropLast ++ next.drop 1) :: more else chunk :: next :: more
      | _, _ => chunk :: next :: more

/-- A character by itself. -/
def single (c : Char) : GlobRange := ⟨c, c⟩

/-- The ranges of chunks: the end of each and the start of the next are the
  ends of a range, all else stands for itself. -/
def chunkRanges : List (List Char) → List GlobRange
  | [] => []
  | [chunk] => chunk.map single
  | [] :: rest => single '-' :: chunkRanges rest
  | chunk :: next :: rest =>
    let ends := match chunk.getLast?, next.head? with
      | some a, some b => [⟨a, b⟩]
      | _, _ => []
    (chunk.dropLast.map single) ++ ends ++ chunkRanges (next :: rest)

/-- The token of the content of a bracket. -/
def setToken (content : List Char) : GlobToken :=
  let skip := if content.head? == some '!' then 2 else 1
  let chunks := dropEmptyRanges (closeChunks (chunksFrom skip [] content))
  match chunks with
  | ('!' :: chunk) :: rest => .set true (chunkRanges (chunk :: rest))
  | chunks => .set false (chunkRanges chunks)

/-- The number of characters before the bracket that closes a set.  A closing
  bracket directly after the opening one, or after its `!`, belongs to the set. -/
def closing? (s : List Char) : Option Nat :=
  let bang := if s.head? == some '!' then 1 else 0
  let first := if (s.drop bang).head? == some ']' then bang + 1 else bang
  let inside := ((s.drop first).takeWhile (· != ']')).length
  if first + inside < s.length then some (first + inside) else none

/-- The tokens of a text, after `skip` characters that belong to a set. -/
def parseFrom : Nat → List Char → List GlobToken
  | _, [] => []
  | skip + 1, _ :: rest => parseFrom skip rest
  | 0, c :: rest =>
    if c == '*' then .anyText :: parseFrom 0 rest
    else if c == '?' then .anyChar :: parseFrom 0 rest
    else if c == '[' then
      match closing? rest with
      | some n => setToken (rest.take n) :: parseFrom (n + 1) rest
      | none => .char c :: parseFrom 0 rest
    else .char c :: parseFrom 0 rest

/-- The pattern of a text. -/
def parse (s : String) : List GlobToken := parseFrom 0 s.toList

/-- One character fits a token. -/
def fits (c : Char) : GlobToken → Bool
  | .anyText | .anyChar => true
  | .char d => c == d
  | .set negated ranges => ranges.any (fun r => r.first ≤ c && c ≤ r.last) != negated

/-- Some end of a text passes a test. -/
def anyTail (p : List Char → Bool) : List Char → Bool
  | [] => p []
  | c :: rest => p (c :: rest) || anyTail p rest

/-- A whole text fits a pattern. -/
def matchesChars : List GlobToken → List Char → Bool
  | [], s => s.isEmpty
  | .anyText :: rest, s => anyTail (matchesChars rest) s
  | _ :: _, [] => false
  | token :: rest, c :: s => fits c token && matchesChars rest s

/-- A name fits a pattern. -/
def accepts (pattern name : String) : Bool := matchesChars (parse pattern) name.toList

end Glob

end DepGraph.Text
