/-
  DepGraph — the file tree that a run works on.

  A workspace holds what lies below the current directory.  A place in it is
  the list of the names that lead there; the empty list is the directory
  itself.  Nothing outside the workspace exists.

  * `Entry`: a file with its bytes, a folder, or a link that leads nowhere.
  * `Fault`: why a path leads to nothing that can be opened.
  * `Workspace.locate`: the place that a path leads to; every name on the way is
    looked up in a folder that exists, so `gone/..` leads nowhere.
  * `Workspace.write`: the workspace after a file is written.
  * `Workspace.listing`: what lies below a place, folders left out, in order.
-/
import DepGraph.OrderedMap
import DepGraph.Text.Segments

namespace DepGraph

open DepGraph.Text

/-- What stands at a place. -/
inductive Entry
  | file (bytes : List UInt8)
  | folder
  /-- A link that leads nowhere: it is listed, and cannot be opened. -/
  | dangling
  deriving DecidableEq, Repr

/-- Why a path cannot be opened. -/
inductive Fault
  | missing
  | notDirectory
  | isDirectory
  | nameTooLong
  deriving DecidableEq, Repr

/-- The number of a fault. -/
def Fault.number : Fault → Nat
  | .missing => 2
  | .notDirectory => 20
  | .isDirectory => 21
  | .nameTooLong => 36

/-- The text of a fault. -/
def Fault.text : Fault → String
  | .missing => "No such file or directory"
  | .notDirectory => "Not a directory"
  | .isDirectory => "Is a directory"
  | .nameTooLong => "File name too long"

/-- The most bytes of a name. -/
def longestName : Nat := 255

/-- The most bytes of a path. -/
def longestPath : Nat := 4095

/-- The files, folders and links below the current directory. -/
structure Workspace where
  entries : OrderedMap (List String) Entry
  deriving DecidableEq

namespace Workspace

/-- The workspace that holds nothing. -/
def empty : Workspace := ⟨∅⟩

instance : Inhabited Workspace := ⟨empty⟩

/-- What stands at a place. -/
def entry? (ws : Workspace) (place : List String) : Option Entry :=
  if place.isEmpty then some .folder else ws.entries.get? place

/-! ## Changing the tree -/

/-- Put an entry at a place; the folders that lead there come into being. -/
def put (ws : Workspace) (place : List String) (entry : Entry) : Workspace :=
  let folders := growing place.dropLast
  ⟨(folders.foldl (fun m p => m.insertNew p .folder) ws.entries).insert place entry⟩

/-- Take a place away, with all that lies below it. -/
def remove (ws : Workspace) (place : List String) : Workspace :=
  ⟨ws.entries.filter fun p _ => !place.isPrefixOf p⟩

/-! ## Following paths -/

/-- Follow the segments of a path from a place. -/
def follow (ws : Workspace) : List String → List String → Except Fault (List String)
  | place, [] => .ok place
  | place, segment :: rest =>
    match ws.entry? place with
    | some .folder =>
      if segment = "" ∨ segment = "." then follow ws place rest
      else if segment = ".." then
        if place.isEmpty then .error .missing else follow ws place.dropLast rest
      else if longestName < segment.utf8ByteSize then .error .nameTooLong
      else
        match ws.entry? (place ++ [segment]) with
        | some (.file _) | some .folder => follow ws (place ++ [segment]) rest
        | some .dangling | none => .error .missing
    | _ => .error .notDirectory

/-- The place that a path leads to. -/
def locate (ws : Workspace) (path : String) : Except Fault (List String) :=
  if path = "" then .error .missing
  else if longestPath < path.utf8ByteSize then .error .nameTooLong
  else if startsWith path "/" then .error .missing
  else ws.follow [] (split "/" path)

/-- A path leads somewhere.  A path that is too long cannot even be asked for. -/
def pathExists (ws : Workspace) (path : String) : Except Fault Bool :=
  if '\x00' ∈ path.toList then .ok false
  else
    match ws.locate path with
    | .ok _ => .ok true
    | .error .nameTooLong => .error .nameTooLong
    | .error _ => .ok false

/-- A path leads to a file. -/
def isFile (ws : Workspace) (path : String) : Bool :=
  match ws.locate path with
  | .ok place => match ws.entry? place with
    | some (.file _) => true
    | _ => false
  | .error _ => false

/-- The bytes of the file that a path leads to. -/
def bytes (ws : Workspace) (path : String) : Except Fault (List UInt8) := do
  match ws.entry? (← ws.locate path) with
  | some (.file bytes) => .ok bytes
  | some .folder => .error .isDirectory
  | _ => .error .missing

/-- The place where a path has a file written: its folder exists, and no folder
  stands there. -/
def placeToWrite (ws : Workspace) (path : String) : Except Fault (List String) := do
  if longestPath < path.utf8ByteSize then .error .nameTooLong
  if startsWith path "/" then .error .missing
  let segments := split "/" path
  let name := segments.getLast?.getD ""
  if name = "" ∨ name = "." ∨ name = ".." then
    let _ ← ws.locate path
    .error .isDirectory
  let place ← ws.follow [] segments.dropLast
  if ws.entry? place ≠ some .folder then .error .notDirectory
  if longestName < name.utf8ByteSize then .error .nameTooLong
  match ws.entry? (place ++ [name]) with
  | some .folder => .error .isDirectory
  | some .dangling => .error .missing
  | _ => .ok (place ++ [name])

/-- Write a file. -/
def write (ws : Workspace) (path : String) (bytes : List UInt8) : Except Fault Workspace :=
  (ws.placeToWrite path).map fun place => ⟨ws.entries.insert place (.file bytes)⟩

/-! ## Listing -/

/-- The names that lead from a place to one strictly below it. -/
def below? (place p : List String) : Option (List String) :=
  (place.isPrefixOf? p).bind fun rest => if rest.isEmpty then none else some rest

/-- What lies below a place, folders left out, each as the names that lead to
  it, in order of these names. -/
def listing (ws : Workspace) (place : List String) : List (List String) :=
  let found := ws.entries.entries.filterMap fun e =>
    if e.2 = .folder then none else below? place e.1
  found.mergeSort fun a b => !decide (b < a)

/-- What lies below the folder that a path leads to; nothing, if there is none. -/
def filesBelow (ws : Workspace) (path : String) : Except Fault (List String) :=
  match ws.locate path with
  | .ok place => .ok ((ws.listing place).map (join "/"))
  | .error .nameTooLong => .error .nameTooLong
  | .error _ => .ok []

end Workspace

end DepGraph
