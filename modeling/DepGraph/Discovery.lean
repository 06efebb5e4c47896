/-
  DepGraph — which files a run reads.

  The target of a run is a file, or a folder in which all files of the language
  are looked for, at any depth.

  * `Workspace.collect`: the files of a language below a folder.
  * `Target`: the folder of a run and its files, as names within the folder.
  * `Workspace.discover`: the target of a configuration.
-/
import DepGraph.Settings.Config
import DepGraph.Text.Glob

namespace DepGraph

open DepGraph.Text

/-- Patterns of the folders that hold no files of the project itself. -/
def auxiliaryFolders : List String := [".git", "node_modules"]

/-- A file lies in a folder that is left out. -/
def isSkipped (skip : List String) (file : String) : Bool :=
  (split "/" file).dropLast.any fun folder => skip.any (Glob.accepts · folder)

/-- What a run reads. -/
structure Target where
  root : Path
  /-- The files, as names within the root. -/
  files : List String
  deriving DecidableEq, Repr

namespace Workspace

/-- The files of a language below a folder that pass a filter, in order. -/
def collect (ws : Workspace) (l : Language) (f : NameFilter) (skip : List String)
    (folder : Path) : Except FileError (List String) :=
  ((ws.filesBelow folder.text).mapError (.fault · folder.text)).map
    (·.filter fun file => !isSkipped skip file && f.passes file && l.handles file)

end Workspace

/-- The patterns of the folders that are left out. -/
def Config.skippedFolders (c : Config) : List String :=
  if c.skipAuxiliary then auxiliaryFolders else []

/-- The target of a configuration. -/
def Workspace.discover (ws : Workspace) (c : Config) (l : Language) : Except Failure Target :=
  let path := c.target.text
  match ws.pathExists path with
  | .error cause => .error (.file (.fault cause path))
  | .ok false => .error (.missingTarget path)
  | .ok true =>
    if ws.isFile path then .ok ⟨c.target.parent, [c.target.name]⟩
    else do
      let filter ← filterOf c.inputFilters
      let files ← (ws.collect l filter c.skippedFolders c.target).mapError .file
      return ⟨c.target, files⟩

end DepGraph
