/-
  DepGraph — normal forms of slash-separated references.

  A reference may hold `.` and `..` segments.  Its normal form is computed from
  the text alone: `.` vanishes, `..` takes the segment before it away, and a
  `..` with nothing before it vanishes as well.

  * `cancelDots`: the normal form.
  * `joinPath`: a reference seen from a directory; the empty directory is the
    root of the tree.
-/
import DepGraph.Text.Segments

namespace DepGraph

open DepGraph.Text

/-- One segment, after the segments that are kept so far (last first). -/
def keepSegment (kept : List String) (segment : String) : List String :=
  if segment = "." then kept
  else if segment = ".." then kept.drop 1
  else segment :: kept

/-- The segments that remain of a path. -/
def keptSegments (segments : List String) : List String :=
  (segments.foldl keepSegment []).reverse

/-- The normal form of a reference: no `.` and no `..` segment. -/
def cancelDots (path : String) : String := join "/" (keptSegments (split "/" path))

/-- A reference seen from a directory. -/
def joinPath (directory path : String) : String :=
  if directory = "" then path else directory ++ "/" ++ path

end DepGraph
