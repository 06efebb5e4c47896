/-
  DepGraph — shorter names.

  Names become shorter in two ways: a common beginning is cut, or only the first
  segments are kept.  Names that become equal stand for one entity.

  * `cutStart`: a name without a fixed beginning.
  * `truncate`: the first segments of a name; a negative depth counts the
    segments to leave out at the end.
  * `collapse`: edges between truncated names, without empty names, self-edges
    and repetitions.  Names within the tree and names outside it are truncated
    to depths of their own.
-/
import DepGraph.Graph.Dependencies

namespace DepGraph

open DepGraph.Text

/-- A name without a fixed beginning, if it has it. -/
def cutStart (start name : String) : String := (dropPrefix? start name).getD name

/-- Edges between names without a fixed beginning. -/
def cutStarts (start : String) (edges : List Edge) : List Edge :=
  edges.map fun e => (cutStart start e.1, cutStart start e.2)

/-- The first segments; a negative depth counts those left out at the end. -/
def takeSegments (depth : Int) (parts : List String) : List String :=
  if 0 ≤ depth then parts.take depth.toNat else parts.take (parts.length - depth.natAbs)

/-- A name cut after its first segments.  Depth zero leaves it whole. -/
def truncate (separator : String) (depth : Int) (name : String) : String :=
  if depth = 0 then name else join separator (takeSegments depth (split separator name))

/-- How deep names are kept, within the tree and outside it. -/
structure Depths where
  inside : Int
  outside : Int
  deriving DecidableEq, Repr

/-- Some names are cut. -/
def Depths.isActive (d : Depths) : Bool := d.inside != 0 || d.outside != 0

/-- Names and their leading parts. -/
def withLeadingParts (separator : String) (names : List String) : List String :=
  names.flatMap (leadingParts separator)

/-- The truncated form of a name, given the names within the tree. -/
def shorten (separator : String) (depths : Depths) (inside : List String) (name : String) :
    String :=
  truncate separator (if name ∈ inside then depths.inside else depths.outside) name

/-- Edges between the truncated names; `inside` are names within the tree, as
  are the leading parts of these. -/
def collapse (separator : String) (depths : Depths) (inside : List String) (edges : List Edge) :
    List Edge :=
  let inside := withLeadingParts separator inside
  let short := edges.map fun e =>
    (shorten separator depths inside e.1, shorten separator depths inside e.2)
  Dependencies.cleanFrom [] (short.filter fun e => e.1 != "" && e.2 != "")

/-- Collapsing asks for segments although nothing separates them. -/
def lacksSeparator (separator : String) (depths : Depths) (inside : List String)
    (edges : List Edge) : Bool :=
  separator == "" && (!inside.isEmpty || (!edges.isEmpty && depths.outside != 0))

end DepGraph
