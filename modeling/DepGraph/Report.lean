/-
  DepGraph — what one file says about its dependencies.

  * `Report`: the module that a file declares, its references to files, and the
    dependencies between modules that it states.
  * `Report.merge`: two parts of a file one after the other; of two declared
    modules the later one counts.
-/
import DepGraph.Graph.Dependencies

namespace DepGraph

/-- What one file, or a part of it, says about its dependencies. -/
structure Report where
  /-- The module that the file declares. -/
  declared : Option String
  /-- References to files, as they are written. -/
  references : List String
  /-- Dependencies between modules. -/
  modules : Dependencies
  deriving DecidableEq

namespace Report

/-- The report that says nothing. -/
def empty : Report := ⟨none, [], ∅⟩

instance : Inhabited Report := ⟨empty⟩

/-- The report of references alone. -/
def ofReferences (references : List String) : Report := ⟨none, references, ∅⟩

/-- The report of one module and what it depends on. -/
def ofModule (name : String) (dependencies : List String) : Report :=
  ⟨some name, [], OrderedMap.ofList [(name, dependencies)]⟩

/-- The module of two parts: the later one, unless it is empty. -/
def laterName (first second : Option String) : Option String :=
  match second with
  | some name => if name = "" then first else some name
  | none => first

/-- Two parts of a file one after the other. -/
def merge (r s : Report) : Report :=
  ⟨laterName r.declared s.declared, r.references ++ s.references,
    Dependencies.merge r.modules s.modules⟩

/-- All parts of a file one after the other. -/
def mergeAll (parts : List Report) : Report := parts.foldl merge empty

end Report

end DepGraph
