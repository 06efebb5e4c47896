/-
  DepGraph — imports of Python.

  A statement `import a, b` refers to the modules it names.  `from m import a`
  refers to `m`; when `m` consists of dots alone, it refers to the members `a`
  within that package.  A call `import_module("m")` refers to `m` wherever it
  stands.

  * `Import`, `readImport?`: the statement of a line.
  * `modulePath`: the path of a module; each dot separates, and the dots at the
    front lead upward.
  * `logicalLines`: a list in parentheses that spans several lines is one line.
  * `scanPythonLine`, `scanPython`: the report of a line and of a file.
-/
import DepGraph.Report
import DepGraph.Text.Lines
import DepGraph.Text.Scan
import DepGraph.Text.Segments

namespace DepGraph

open DepGraph.Text

/-! ## Statements -/

/-- An import statement. -/
inductive Import
  /-- `import names`. -/
  | modules (names : List Char)
  /-- `from base import names`. -/
  | members (base names : List Char)
  deriving DecidableEq, Repr

/-- Only blanks and a comment follow, up to the end of the line. -/
def endsLine (s : List Char) : Bool :=
  match skipBlanks s with
  | [] => true
  | c :: rest =>
    let beyond := rest.dropWhile (· != '\n')
    c == '#' && (beyond == [] || beyond == ['\n'])

/-- The shortest beginning of a text, not empty, with which the line may end. -/
def shortestBody? : List Char → Option (List Char)
  | [] => none
  | c :: rest =>
    if c == '\n' then none
    else if endsLine rest then some [c]
    else (shortestBody? rest).map (c :: ·)

/-- The places after at least one of the blanks at the front, last place first. -/
def placesAfterBlank : List Char → List (List Char)
  | [] => []
  | c :: rest => if isBlank c then placesAfterBlank rest ++ [rest] else []

/-- What an import statement names: blanks come before it, and it starts as late
  as it can. -/
def importedNames? (s : List Char) : Option (List Char) :=
  (placesAfterBlank s).findSome? shortestBody?

/-- The statement of a line that starts with `from`. -/
def readMembers? (line : List Char) : Option Import := do
  let (base, rest) ← run? (!isBlank ·) (← keyword? "from" line)
  let names ← importedNames? (← after? "import" (← blanks? rest))
  return .members base names

/-- The statement of a line that starts with `import`. -/
def readModules? (line : List Char) : Option Import := do
  let names ← importedNames? (← after? "import" (skipBlanks line))
  return .modules names

/-- The import statement of a line. -/
def readImport? (line : List Char) : Option Import :=
  (readMembers? line).orElse fun _ => readModules? line

/-! ## What a statement refers to -/

/-- The first words of the items of a list. -/
def firstWords (names : List Char) : List (List Char) :=
  (segments [','] names).filterMap fun item => (words item).head?

/-- A text without the parentheses at its ends. -/
def dropParentheses (s : List Char) : List Char :=
  let isParenthesis := fun c => c == '(' || c == ')'
  ((s.dropWhile isParenthesis).reverse.dropWhile isParenthesis).reverse

/-- The modules that a statement refers to. -/
def Import.targets : Import → List (List Char)
  | .modules names => firstWords names
  | .members base names =>
    if base.all (· == '.') then
      ((firstWords (dropParentheses names)).filter (· != ['*'])).map (base ++ ·)
    else [base]

/-- The module of a call `import_module("m")` at the front of a text. -/
def calledModule? (s : List Char) : Option (List Char) := do
  let rest ← after? "(" (skipBlanks (← after? "import_module" s))
  match skipBlanks rest with
  | quote :: c :: rest =>
    let more := rest.takeWhile fun d => d != quote && d != '\n'
    if (quote == '\'' || quote == '"') && c != '\n' &&
        (rest.drop more.length).head? == some quote then some (c :: more)
    else none
  | _ => none

/-- The modules that a line refers to. -/
def importTargets (line : List Char) : List (List Char) :=
  ((readImport? line).map Import.targets).getD [] ++ (findFirst calledModule? line).toList

/-- The way up that a number of leading dots stands for: the first one is the
  package itself. -/
def wayUp : Nat → List Char
  | 0 => []
  | 1 => ['.', '/']
  | n + 2 => (List.replicate (n + 1) ['.', '.', '/']).flatten

/-- The path of a module name. -/
def modulePath (name : List Char) : List Char :=
  let dots := name.takeWhile (· == '.')
  wayUp dots.length ++
    (name.drop dots.length).map fun c => if c == '.' then '/' else c

/-- The report of one line. -/
def scanPythonLine (line : List Char) : Report :=
  .ofReferences ((importTargets line).map fun m => String.ofList (modulePath m))

/-! ## Lists over several lines -/

/-- The part of a line before its comment. -/
def beforeComment (line : List Char) : List Char := line.takeWhile (· != '#')

/-- A line opens a list in parentheses and does not close it. -/
def opensList (line : List Char) : Bool :=
  (readMembers? line).isSome && (beforeComment line).contains '(' && !line.contains ')'

/-- The lines of a file with every list in parentheses on one line; `opened` is
  the list that is open.  A list that is never closed is left out. -/
def logicalLinesFrom : Option (List Char) → List (List Char) → List (List Char)
  | _, [] => []
  | some opened, line :: rest =>
    let longer := opened ++ ' ' :: trim (beforeComment line)
    if line.contains ')' then longer :: logicalLinesFrom none rest
    else logicalLinesFrom (some longer) rest
  | none, line :: rest =>
    if opensList line then logicalLinesFrom (some (trimRight (beforeComment line))) rest
    else line :: logicalLinesFrom none rest

/-- The lines of a file with every list in parentheses on one line. -/
def logicalLines (ls : List (List Char)) : List (List Char) := logicalLinesFrom none ls

/-- The report of a file. -/
def scanPython (text : List Char) : Report :=
  .mergeAll ((logicalLines (lines text)).map scanPythonLine)

end DepGraph
