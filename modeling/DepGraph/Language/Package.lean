/-
  DepGraph — npm packages.

  A manifest `package.json` names the package and what it depends on.  A lock
  file beside it tells the same for every package that is installed: either
  `yarn.lock`, whose entries are separated by empty lines, or
  `package-lock.json`.

  * `readYarnLock`: entries `name@range, …:`, each with the list under
    `dependencies:`.
  * `readPackageLock`: the members of `packages`; what is not of the right shape
    counts as absent.
  * `readManifest?`: the name of the package and its direct dependencies.
  * `scanPackage`: the report of a manifest.  Lock files that yield nothing leave
    the manifest to be read.
-/
import DepGraph.Json.Reader
import DepGraph.Language.Source
import DepGraph.Report
import DepGraph.Text.Blank

namespace DepGraph

open DepGraph.Text

/-! ## Lock files of yarn -/

/-- A text without the double quotes around it. -/
def unquote (s : List Char) : List Char :=
  if 2 ≤ s.length && s.head? == some '"' && s.getLast? == some '"' then (s.drop 1).dropLast else s

/-- The trimmed lines of a section that are not empty. -/
def sectionLines (text : List Char) : List (List Char) :=
  ((lines text).map trim).filter (!·.isEmpty)

/-- The packages that the first line of an entry lists. -/
def headerPackages (header : List Char) : List (List Char) :=
  (segments [','] (header.takeWhile (· != ':'))).map fun p => unquote (trim p)

/-- A requirement: its words, unquoted, with `@` between them. -/
def requirement (line : List Char) : List Char :=
  List.intercalate ['@'] ((words line).map unquote)

/-- The requirements of an entry: the lines after `dependencies:` up to the next
  heading. -/
def requirements (entry : List (List Char)) : List (List Char) :=
  let isHeading := fun line => "dependencies:".toList.isPrefixOf line
  let listed := (entry.dropWhile (!isHeading ·)).drop 1
  (listed.takeWhile fun line => line.getLast? != some ':').map requirement

/-- The packages of an entry with its requirements. -/
def yarnEntry (part : List Char) : List (String × List String) :=
  match sectionLines part with
  | [] => []
  | header :: rest =>
    if header.head? == some '#' then []
    else
      let required := (requirements (header :: rest)).map String.ofList
      (headerPackages header).map fun p => (String.ofList p, required)

/-- The packages of a `yarn.lock` with their requirements. -/
def readYarnLock (text : List Char) : Dependencies :=
  OrderedMap.ofList ((segments ['\n', '\n'] text).flatMap yarnEntry)

/-! ## JSON files -/

/-- The members of an object; a value that counts as absent has none, and any
  other value is of the wrong shape. -/
def membersOrAbsent? (v : Option Json) : Option (List (String × Json)) :=
  match v with
  | none => some []
  | some (.object members) => some members
  | some v => if v.isTruthy then none else some []

/-- The name that a package gives itself. -/
def packageName (package : Json) : String := ((package.member? "name").bind Json.string?).getD ""

/-- A package of a lock file with what it requires. -/
def lockEntry (key : String) (package : Json) : Option (String × List String) :=
  match package with
  | .object _ =>
    let required := (membersOrAbsent? (package.member? "dependencies")).getD []
    some (if key = "" then packageName package else key, required.map (·.1))
  | _ => none

/-- The packages of a `package-lock.json` with their requirements. -/
def readPackageLock (text : List Char) : Dependencies :=
  let packages : Option (List (String × Json)) := do
    let lock ← Json.readSettled? text
    let _ ← lock.object?
    membersOrAbsent? (lock.member? "packages")
  OrderedMap.ofList ((packages.getD []).filterMap fun p => lockEntry p.1 p.2)

/-- A package as its manifest describes it. -/
structure Manifest where
  name : String
  dependencies : List String
  deriving DecidableEq, Repr

/-- The package that a manifest describes, if the manifest is of the right shape. -/
def readManifest? (dev : Bool) (text : List Char) : Option Manifest := do
  let package ← Json.readSettled? text
  let _ ← package.object?
  let key := if dev then "devDependencies" else "dependencies"
  let listed ← membersOrAbsent? (package.member? key)
  return ⟨packageName package, listed.map (·.1)⟩

/-! ## Reports -/

/-- The packages of the `yarn.lock` in a folder.  A file that cannot be opened
  has none. -/
def yarnLockIn (beside : String → Except FileError (List UInt8)) :
    Except FileError Dependencies :=
  match beside "yarn.lock" with
  | .error (.fault ..) => .ok ∅
  | .error e => .error e
  | .ok bytes => (Workspace.textOf bytes).map readYarnLock

/-- The packages of the `package-lock.json` in a folder.  A file that cannot be
  read has none. -/
def packageLockIn (beside : String → Except FileError (List UInt8)) : Dependencies :=
  match (beside "package-lock.json").bind Workspace.textOf with
  | .ok text => readPackageLock text
  | .error _ => ∅

/-- The packages of the lock file in a folder. -/
def lockedIn (beside : String → Except FileError (List UInt8)) : Except FileError Dependencies := do
  let locked ← yarnLockIn beside
  return if locked.isEmpty then packageLockIn beside else locked

/-- The report of a manifest, given what the lock file holds. -/
def manifestReport (file : String) (locked : Dependencies) (manifest : Option Manifest) : Report :=
  let name := (manifest.map (·.name)).filter (· != "")
  if !locked.isEmpty then ⟨name, [], locked⟩
  else
    match manifest with
    | none => .empty
    | some m => ⟨name, [], OrderedMap.ofList [(name.getD file, m.dependencies)]⟩

/-- The report of a manifest. -/
def scanPackage (s : Source) : Except FileError Report := do
  let locked ← if s.options.lockFile then lockedIn s.beside else .ok ∅
  return manifestReport s.file locked (readManifest? s.options.dev (← s.text))

end DepGraph
