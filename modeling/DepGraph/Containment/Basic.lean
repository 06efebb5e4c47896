/-
  DepGraph — containment trees.

  A name with separators lies within the names that end before one of them:
  `a/b/c` lies within `a/b`, which lies within `a`.  The tree nests every name
  under each of its leading parts.

  * `Containment`: the entries of one level in order of first insertion; an
    entry is a leaf, or has a level of its own below it.
  * `insert`: enter a chain of nested names.  A leaf becomes an inner entry when
    a deeper name comes; an inner entry never becomes a leaf again.
  * `ofNames`: the tree of some names.
  * `edges`: the pairs of an entry and one directly below it.
-/
import DepGraph.Graph.Dependencies

namespace DepGraph

open DepGraph.Text

/-- The entries of one level of a tree, oldest first. -/
inductive Containment
  | nil
  /-- An entry with nothing below it, and the later ones. -/
  | leaf (name : String) (rest : Containment)
  /-- An entry with a level below it, and the later ones. -/
  | inner (name : String) (below rest : Containment)
  deriving DecidableEq, Repr, Inhabited

namespace Containment

/-- Change the entry of a name, or append one: `f` gets the level below the
  entry (none for a leaf or a new entry) and gives the new one. -/
def modify (name : String) (f : Option Containment → Option Containment) :
    Containment → Containment
  | .nil =>
    match f none with
    | none => .leaf name .nil
    | some below => .inner name below .nil
  | .leaf n rest =>
    if n = name then
      match f none with
      | none => .leaf n rest
      | some below => .inner n below rest
    else .leaf n (modify name f rest)
  | .inner n below rest =>
    if n = name then
      match f (some below) with
      | none => .leaf n rest
      | some below' => .inner n below' rest
    else .inner n below (modify name f rest)

/-- Enter names each of which lies within the one before it. -/
def insert : List String → Containment → Containment
  | [], tree => tree
  | name :: deeper, tree =>
    tree.modify name fun
      | some below => some (insert deeper below)
      | none => if deeper.isEmpty then none else some (insert deeper .nil)

/-- The chain of names under which a name is entered: its leading parts and
  itself, as far as they are not empty. -/
def chain (separator name : String) : List String :=
  (leadingParts separator name).filter (· != "")

/-- Enter names, each under its leading parts. -/
def insertAll (chainOf : String → List String) (tree : Containment) (names : List String) :
    Containment :=
  names.foldl (fun t name => t.insert (chainOf name)) tree

/-- The tree of some names. -/
def ofNames (separator : String) (names : List String) : Containment :=
  insertAll (chain separator) .nil names

/-- The pairs of an entry and one directly below it, from the top; `parent` is
  the entry above this level, if it has a name. -/
def edgesUnder (parent : Option String) : Containment → List Edge
  | .nil => []
  | .leaf name rest =>
    (parent.map fun p => (p, name)).toList ++ edgesUnder parent rest
  | .inner name below rest =>
    (parent.map fun p => (p, name)).toList ++ edgesUnder (some name) below ++
      edgesUnder parent rest

/-- The pairs of an entry and one directly below it. -/
def edges (tree : Containment) : List Edge := tree.edgesUnder none

/-- The entries of this level: each with the level below it, if it has one. -/
def entries : Containment → List (String × Option Containment)
  | .nil => []
  | .leaf name rest => (name, none) :: rest.entries
  | .inner name below rest => (name, some below) :: rest.entries

/-- All names of the tree, each before those below it. -/
def names : Containment → List String
  | .nil => []
  | .leaf name rest => name :: rest.names
  | .inner name below rest => name :: below.names ++ rest.names

end Containment

end DepGraph
