/-
  DepGraph — module declarations and imports of Java and C#.

  Both languages declare the module of a file in one statement and name what
  they use in others; every statement stands on a line of its own.

  * `scanPackages`: a Java file is the module `package.Class`, the class being
    the name of the file; it depends on what its `import` lines name.
  * `scanNamespaces`: a C# file is the module of its `namespace` line, or is
    known by its own name without one; it depends on what its `using` lines
    name.  Of several declarations the last one counts.
-/
import DepGraph.Path.Basic
import DepGraph.Report
import DepGraph.Text.Lines
import DepGraph.Text.Scan

namespace DepGraph

open DepGraph.Text

/-- A semicolon follows, after any blanks. -/
def endsStatement (s : List Char) : Bool := (skipBlanks s).head? == some ';'

/-- A dotted name, of word characters, dots and what else a statement allows. -/
def isNameChar (c : Char) : Bool := isWordChar c || c == '.'

/-- A name that a semicolon ends. -/
def statementName? (p : Char → Bool) (s : List Char) : Option (List Char) := do
  let (name, rest) ← run? p s
  if endsStatement rest then some name else none

/-- A name that a semicolon ends, `static` and blanks before it left out.  The
  word `static` is a name itself when no other name follows it. -/
def staticName? (name? : List Char → Option (List Char)) (s : List Char) : Option (List Char) :=
  (((after? "static" s).bind blanks?).bind name?).orElse fun _ => name? s

/-- The name of a `package` line. -/
def packageName? (line : List Char) : Option (List Char) :=
  (keyword? "package" line).bind (statementName? isNameChar)

/-- The name of an `import` line; it may end in an asterisk. -/
def importName? (line : List Char) : Option (List Char) :=
  (keyword? "import" line).bind (staticName? (statementName? fun c => isNameChar c || c == '*'))

/-- The name of a `namespace` line. -/
def namespaceName? (line : List Char) : Option (List Char) :=
  (keyword? "namespace" line).bind fun s => (run? isNameChar s).map (·.1)

/-- A name that starts with an ASCII letter or an underscore and that a
  semicolon ends. -/
def usedName? (s : List Char) : Option (List Char) := do
  let first ← s.head?
  if first.isAlpha || first == '_' then statementName? isNameChar s else none

/-- The name of a `using` line. -/
def usingName? (line : List Char) : Option (List Char) :=
  (keyword? "using" line).bind (staticName? usedName?)

/-- The last declaration of some lines, and the names that the other lines use. -/
def declarationAndUses (declared? used? : List Char → Option (List Char))
    (ls : List (List Char)) : Option (List Char) × List String :=
  let declared := (ls.filterMap declared?).getLast?
  let uses := (ls.filter fun l => (declared? l).isNone).filterMap used?
  (declared, uses.map String.ofList)

/-- The report of a Java file. -/
def scanPackages (file : String) (text : List Char) : Report :=
  let className := (Path.ofText file).stem
  let (package, imports) := declarationAndUses packageName? importName? (lines text)
  let name := match package with
    | some p => String.ofList p ++ "." ++ className
    | none => className
  .ofModule name imports

/-- The report of a C# file. -/
def scanNamespaces (file : String) (text : List Char) : Report :=
  let (space, uses) := declarationAndUses namespaceName? usingName? (lines text)
  .ofModule ((space.map String.ofList).getD file) uses

end DepGraph
