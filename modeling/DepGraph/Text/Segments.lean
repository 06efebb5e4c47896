/-
  DepGraph — segments of a name.

  A separator cuts a name at its occurrences, found from left to right and not
  overlapping.

  * `segments` and `join`: the pieces, and the name they make again.
  * `leadingParts`: the names that end before a separator, shortest first, and
    then the name itself.
  * `dropPrefix?`, `startsWith`, `endsWith`: fixed text at either end.
  * `replaceAll`: every occurrence of a text written anew.
  * `segments_ne_nil`: there is always a first segment.
-/

namespace DepGraph.Text

/-- The segments of a text, given how many characters of a separator are still
  to be passed. -/
def segmentsFrom (sep : List Char) : Nat → List Char → List (List Char)
  | _, [] => [[]]
  | skip + 1, _ :: rest => segmentsFrom sep skip rest
  | 0, c :: rest =>
    if sep.isPrefixOf (c :: rest) then [] :: segmentsFrom sep (sep.length - 1) rest
    else
      match segmentsFrom sep 0 rest with
      | [] => [[c]]
      | s :: more => (c :: s) :: more

/-- The segments of a text between the occurrences of a separator.  The empty
  separator occurs nowhere. -/
def segments (sep s : List Char) : List (List Char) :=
  if sep.isEmpty then [s] else segmentsFrom sep 0 s

/-- The segments of a name. -/
def split (sep s : String) : List String := (segments sep.toList s.toList).map String.ofList

/-- Names with a separator between each two. -/
def join (sep : String) (parts : List String) : String := sep.intercalate parts

/-- The first parts of a list, from one element up to the whole list. -/
def growing : List α → List (List α)
  | [] => []
  | a :: rest => [a] :: (growing rest).map (a :: ·)

/-- The names that end before an occurrence of the separator, shortest first,
  and then the name itself. -/
def leadingParts (sep s : String) : List String := (growing (split sep s)).map (join sep)

/-- What follows a fixed beginning. -/
def dropPrefix? (start s : String) : Option String :=
  (start.toList.isPrefixOf? s.toList).map String.ofList

/-- A text has a fixed beginning. -/
def startsWith (s start : String) : Bool := start.toList.isPrefixOf s.toList

/-- A text has a fixed end. -/
def endsWith (s tail : String) : Bool := tail.toList.isSuffixOf s.toList

/-- Every occurrence of a text, from left to right, written anew. -/
def replaceAll (old new s : String) : String := join new (split old s)

/-- A text occurs within another. -/
def occursIn (part : List Char) : List Char → Bool
  | [] => part.isEmpty
  | c :: rest => part.isPrefixOf (c :: rest) || occursIn part rest

theorem segmentsFrom_ne_nil (sep : List Char) (skip : Nat) (s : List Char) :
    segmentsFrom sep skip s ≠ [] := by
  fun_induction segmentsFrom sep skip s <;> simp_all

theorem segments_ne_nil (sep s : List Char) : segments sep s ≠ [] := by
  unfold segments
  split
  · simp
  · exact segmentsFrom_ne_nil sep 0 s

end DepGraph.Text
