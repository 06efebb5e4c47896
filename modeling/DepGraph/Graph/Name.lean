/-
  DepGraph — names of entities outside the scanned tree.

  An entity that a reference names but the tree does not hold is external: its
  name carries a tag.

  * `externalTag`, `externalModuleTag`: the two tags, for references and for
    modules.
  * `isExternal`: a name carries one of them.
-/
import DepGraph.Text.Segments

namespace DepGraph

open DepGraph.Text

/-- The tag of a reference that resolves to no file. -/
def externalTag : String := "*external*/"

/-- The tag of a module that no file holds. -/
def externalModuleTag : String := "*external-module*/"

/-- A name carries a tag of what lies outside the tree. -/
def isExternal (name : String) : Bool :=
  startsWith name externalTag || startsWith name externalModuleTag

/-- Tag a name as external, unless it is tagged already. -/
def markName (name : String) : String := if isExternal name then name else externalTag ++ name

end DepGraph
