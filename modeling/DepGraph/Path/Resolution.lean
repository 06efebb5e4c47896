/-
  DepGraph — which file a reference means.

  A reference is tried as it is written and then with each suffix of the
  language.  Each of these candidates is compared with the files of the tree in
  order: it means a file that is its joined normal form, or, unless matching is
  strict, a file that is its own normal form or ends with a slash and that form.

  * `Candidate`: a candidate with its two normal forms.
  * `Candidate.accepts`: the file that a candidate may mean.
  * `resolvePath`: the first file of the first candidate that has one.
  * `Resolver`: the files of a tree with a renaming of references that resolve
    to nothing; `lookup` and `resolve`.
-/
import DepGraph.Graph.Name
import DepGraph.Path.Normal

namespace DepGraph

open DepGraph.Text

/-- A candidate of a reference: its own normal form, and the one seen from the
  directory of the file that refers to it. -/
structure Candidate where
  normalized : String
  joined : String
  deriving DecidableEq, Repr

namespace Candidate

/-- The normal forms of a written candidate.  One that starts with a slash is
  rooted at the tree. -/
def ofText (directory text : String) : Candidate :=
  let normalized := cancelDots text
  if startsWith text "/" then
    ⟨normalized, String.ofList (normalized.toList.dropWhile (· == '/'))⟩
  else ⟨normalized, cancelDots (joinPath directory text)⟩

/-- The candidate may mean a file. -/
def accepts (strict : Bool) (c : Candidate) (file : String) : Bool :=
  file == c.joined ||
    (!strict && (file == c.normalized || endsWith file ("/" ++ c.normalized)))

end Candidate

/-- The candidates of a reference, in the order in which they are tried. -/
def candidates (raw directory : String) (suffixes : List String) : List Candidate :=
  (raw :: suffixes.map (raw ++ ·)).map (Candidate.ofText directory)

/-- The first file of the first candidate that has one. -/
def resolvePath (raw directory : String) (files suffixes : List String) (strict : Bool) :
    Option String :=
  (candidates raw directory suffixes).findSome? fun c => files.find? (c.accepts strict)

/-- The files of a tree, and how references to them are read. -/
structure Resolver where
  files : List String
  suffixes : List String
  strict : Bool
  /-- Another name for a reference that means no file. -/
  rename : Option (String → Option String)

namespace Resolver

/-- The file that a reference means by itself. -/
def find (r : Resolver) (raw directory : String) : Option String :=
  resolvePath raw directory r.files r.suffixes r.strict

/-- The other name of a reference, if it has one. -/
def renamed? (r : Resolver) (raw : String) : Option String :=
  (r.rename.bind fun rename => rename (cancelDots raw)).filter (· != raw)

/-- The file that a reference means, by itself or under its other name. -/
def lookup (r : Resolver) (raw directory : String) : Option String :=
  match r.find raw directory with
  | some file => some file
  | none => (r.renamed? raw).bind fun name => r.find name directory

/-- The file that a reference means, or the reference tagged as external. -/
def resolve (r : Resolver) (raw directory : String) : String :=
  (r.lookup raw directory).getD (externalTag ++ raw)

end Resolver

end DepGraph
