/-
  DepGraph — paths.

  A path is relative or starts at a root, and has parts; empty parts and `.`
  are left out when it is read, `..` is kept.  Exactly two slashes at the front
  are a root of their own.

  * `Path.ofText`, `Path.text`: reading and writing.
  * `Path.name`, `Path.suffix`, `Path.stem`, `Path.parent`, `Path.append`.
  * `suffixOf`, `stemOf`: a name at its last dot, when the dot is neither its
    first nor its last character.
-/
import DepGraph.Text.Segments

namespace DepGraph

open DepGraph.Text

/-- A path: how many slashes its root has (none for a relative path), and its
  parts. -/
structure Path where
  slashes : Nat
  parts : List String
  deriving DecidableEq, Repr, Inhabited

/-- The length of a name up to its last dot, when the dot is neither its first
  nor its last character. -/
def stemLength? (name : List Char) : Option Nat :=
  let after := (name.reverse.takeWhile (· != '.')).length
  let before := name.length - after - 1
  if after < name.length && 0 < after && 0 < before then some before else none

/-- The part of a name from its last dot on. -/
def suffixOf (name : String) : String :=
  match stemLength? name.toList with
  | some n => String.ofList (name.toList.drop n)
  | none => ""

/-- The part of a name before its last dot. -/
def stemOf (name : String) : String :=
  match stemLength? name.toList with
  | some n => String.ofList (name.toList.take n)
  | none => name

namespace Path

/-- The path that a text writes. -/
def ofText (s : String) : Path :=
  let n := (s.toList.takeWhile (· == '/')).length
  ⟨if n ≤ 2 then n else 1, (split "/" s).filter fun part => part != "" && part != "."⟩

/-- A path as text; the path without parts is the current directory. -/
def text (p : Path) : String :=
  if p.slashes == 0 && p.parts.isEmpty then "."
  else String.ofList (List.replicate p.slashes '/') ++ join "/" p.parts

/-- The last part. -/
def name (p : Path) : String := p.parts.getLast?.getD ""

/-- The suffix of the last part. -/
def suffix (p : Path) : String := suffixOf p.name

/-- The last part without its suffix. -/
def stem (p : Path) : String := stemOf p.name

/-- The path without its last part. -/
def parent (p : Path) : Path := ⟨p.slashes, p.parts.dropLast⟩

/-- A path seen from another one; one with a root replaces it. -/
def append (p q : Path) : Path := if q.slashes == 0 then ⟨p.slashes, p.parts ++ q.parts⟩ else q

instance : Append Path := ⟨append⟩

end Path

/-- The directory of a file, as a name within the tree: empty for the top. -/
def directoryOf (file : String) : String :=
  let parent := (Path.ofText file).parent.text
  if parent = "." then "" else parent

end DepGraph
