/-
  DepGraph — the survey of the files of a target.

  Every file is scanned by itself.  A file that cannot be read says nothing, and
  does not keep the others from being scanned.

  * `Target.source`: a file of a target as a scanner sees it.
  * `reportOf`: the report of a file.
  * `Target.survey`: the survey of all files.
-/
import DepGraph.Discovery
import DepGraph.Survey

namespace DepGraph

/-- The report of a file; one that cannot be read says nothing. -/
def reportOf (l : Language) (s : Source) : Report :=
  match l.scan s with
  | .ok report => report
  | .error _ => .empty

namespace Target

/-- A file of a target as a scanner sees it. -/
def source (t : Target) (ws : Workspace) (options : ScanOptions) (file : String) : Source where
  file := file
  text := ws.readTextLossy (t.root ++ Path.ofText file).text
  beside name :=
    ws.readBytes (t.root ++ Path.ofText (directoryOf file) ++ Path.ofText name).text
  options := options

/-- How references within a target are read. -/
def resolver (t : Target) (l : Language) (strict : Bool) (rules : List MappingRule) : Resolver :=
  ⟨t.files, l.suffixes, strict, some (renameBy rules)⟩

/-- The survey of the files of a target, one after the other. -/
def collected (t : Target) (l : Language) (r : Resolver) (reports : String → Report) : Survey :=
  t.files.foldl (fun s file => s.add r file (directoryOf file) (reports file))
    (Survey.empty l.separator)

/-- The survey of the files of a target, both views complete. -/
def survey (t : Target) (ws : Workspace) (l : Language) (r : Resolver) (options : ScanOptions) :
    Survey :=
  (t.collected l r fun file => reportOf l (t.source ws options file)).derive

end Target

end DepGraph
