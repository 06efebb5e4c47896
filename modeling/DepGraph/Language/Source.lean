/-
  DepGraph — what a scanner gets to see of a file.

  * `ScanOptions`: what the reader of package manifests may be told.
  * `Source`: the name of a file, its text, the files beside it, and the options.
-/
import DepGraph.Json.Basic
import DepGraph.Workspace.Reading

namespace DepGraph

/-- Options of the reader of package manifests. -/
structure ScanOptions where
  /-- Read the lock file beside a manifest. -/
  lockFile : Bool
  /-- Read the dependencies that only development needs. -/
  dev : Bool
  deriving DecidableEq, Repr

/-- The options that a map of values sets. -/
def ScanOptions.ofValues (values : OrderedMap String Json) : ScanOptions :=
  let isSet := fun key => ((values.get? key).map Json.isTruthy).getD false
  ⟨isSet "lock_file", isSet "dev"⟩

/-- A file as a scanner sees it. -/
structure Source where
  /-- The name of the file within the tree. -/
  file : String
  /-- The text of the file, or why it has none. -/
  text : Except FileError (List Char)
  /-- The bytes of the files in the same folder. -/
  beside : String → Except FileError (List UInt8)
  options : ScanOptions

end DepGraph
