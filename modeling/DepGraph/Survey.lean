/-
  DepGraph — the survey of a tree.

  The survey collects the reports of all files.  It keeps the dependencies
  twice, between files and between modules, and which file holds which module.

  * `Survey`: the four maps, and what separates the parts of a module name.
  * `Survey.add`: the survey with the report of one more file.
  * `Survey.toPath`, `Survey.toModule`: a name of one view in the other view.
  * `Survey.derive`: each view completed with what only the other one states.
-/
import DepGraph.Path.Resolution
import DepGraph.Report

namespace DepGraph

open DepGraph.Text

/-- What is known of the files and the modules of a tree. -/
structure Survey where
  /-- The module that a file declares. -/
  moduleOf : OrderedMap String String
  /-- The first file that declares a module. -/
  pathOf : OrderedMap String String
  /-- The dependencies of files. -/
  paths : Dependencies
  /-- The dependencies of modules. -/
  modules : Dependencies
  /-- What separates the parts of a module name. -/
  separator : String
  deriving DecidableEq

namespace Survey

/-- The survey of no files. -/
def empty (separator : String) : Survey := ⟨∅, ∅, ∅, ∅, separator⟩

instance : Inhabited Survey := ⟨empty "/"⟩

/-! ## Collecting reports -/

/-- Note that a file declares a module. -/
def declare (s : Survey) (file name : String) : Survey :=
  { s with moduleOf := s.moduleOf.insert file name, pathOf := s.pathOf.insertNew name file }

/-- Add the report of a file that lies in a directory: its references resolved,
  and the dependencies that it states between modules. -/
def add (s : Survey) (resolver : Resolver) (file directory : String) (report : Report) : Survey :=
  let declared := match report.declared with
    | some name => if name = "" then s else s.declare file name
    | none => s
  { declared with
    paths := Dependencies.append s.paths file
      (report.references.map fun raw => resolver.resolve raw directory)
    modules := Dependencies.merge s.modules report.modules }

/-! ## The two views -/

/-- The file that stands for a module name, given the dependencies of files that
  are known; a name that is neither a module nor a file of the tree is tagged. -/
def toPath (s : Survey) (paths : Dependencies) (name : String) : String :=
  match s.pathOf.get? name with
  | some path => path
  | none =>
    if isExternal name || paths.contains name then name else externalModuleTag ++ name

/-- The module that stands for a file name; the tag of an external module is
  taken off. -/
def toModule (s : Survey) (name : String) : String :=
  match s.moduleOf.get? name with
  | some m => m
  | none => (dropPrefix? externalModuleTag name).getD name

/-- Complete the dependencies of files with those of one module. -/
def derivePath (s : Survey) (paths : Dependencies) (e : String × List String) : Dependencies :=
  match s.pathOf.get? e.1 with
  | some path => if e.2.isEmpty then paths else paths.appendMissing path (e.2.map (s.toPath paths))
  | none => paths

/-- Complete the dependencies of modules with those of one file. -/
def deriveModule (s : Survey) (modules : Dependencies) (e : String × List String) : Dependencies :=
  match s.moduleOf.get? e.1 with
  | some m => if e.2.isEmpty then modules else modules.appendMissing m (e.2.map s.toModule)
  | none => modules

/-- Complete each view with what only the other one states.  Both are completed
  from what they held before. -/
def derive (s : Survey) : Survey :=
  { s with
    paths := s.modules.entries.foldl s.derivePath s.paths
    modules := s.paths.entries.foldl s.deriveModule s.modules }

end Survey

end DepGraph
