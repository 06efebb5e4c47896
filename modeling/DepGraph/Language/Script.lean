/-
  DepGraph — imports of TypeScript and JavaScript.

  Three statements refer to a file: `import … from "f"` and `export … from "f"`
  at the start of a line and possibly over several lines, `import "f"` at the
  start of a line, and a call `require("f")` or `import("f")` anywhere.

  * `fromClause?`, `bareImport?`, `moduleCall?`: the statement at a place.
  * `scanScript`: the report of a file, its references in order of appearance
    and each of them once.
-/
import DepGraph.Report
import DepGraph.Text.Scan

namespace DepGraph

open DepGraph.Text

/-- The characters that quote the name of a file. -/
def isQuote (c : Char) : Bool := c == '\'' || c == '"'

/-- A name in quotes at the front of a text: the text from the name on, the
  name, and what follows the closing quote. -/
def quotedName? (s : List Char) : Option (List Char × List Char × List Char) :=
  match s with
  | [] => none
  | quote :: inside =>
    if isQuote quote then do
      let (name, rest) ← run? (!isQuote ·) inside
      if rest.isEmpty then none else some (inside, name, rest.drop 1)
    else none

/-- The occurrence of a statement at the front of `s`: its name starts at
  `inside`, and `rest` follows it. -/
def occurrence (s inside name rest : List Char) : Occurrence :=
  ⟨name, s.length - inside.length, s.length - rest.length⟩

/-- A place is the start of a line. -/
def isLineStart (before : Option Char) : Bool := before.all (· == '\n')

/-- What follows the blanks at the front of a line. -/
def skipIndent (s : List Char) : List Char := s.dropWhile fun c => isBlank c && c != '\n'

/-- What follows one of the given words at the front of a text. -/
def afterAny? (choices : List String) (s : List Char) : Option (List Char) :=
  choices.findSome? (after? · s)

/-- A text ends with the word `from` and blanks after it. -/
def endsWithFrom (s : List Char) : Bool :=
  match s.reverse with
  | [] => false
  | c :: rest =>
    if isBlank c then
      match after? "morf" (skipBlanks rest) with
      | some before => isWordEdge before.head? (some 'f')
      | none => false
    else false

/-- An `import … from` or `export … from` clause at the start of a line.  No
  semicolon and no quote stands before `from`. -/
def fromClause? (before : Option Char) (s : List Char) : Option Occurrence := do
  guard (isLineStart before)
  let rest ← afterAny? ["import", "export"] (skipIndent s)
  guard (isWordEdge (some 't') rest.head?)
  let isEnd := fun c => c == ';' || isQuote c
  guard (endsWithFrom (rest.takeWhile (!isEnd ·)))
  let (inside, name, rest) ← quotedName? (rest.dropWhile (!isEnd ·))
  return occurrence s inside name rest

/-- An import of a file alone, at the start of a line. -/
def bareImport? (before : Option Char) (s : List Char) : Option Occurrence := do
  guard (isLineStart before)
  let rest ← blanks? (← after? "import" (skipIndent s))
  let (inside, name, rest) ← quotedName? rest
  return occurrence s inside name rest

/-- A call that loads a file. -/
def moduleCall? (before : Option Char) (s : List Char) : Option Occurrence := do
  guard (isWordEdge before s.head?)
  let rest ← afterAny? ["require", "import"] s
  let rest ← after? "(" (skipBlanks rest)
  let (inside, name, rest) ← quotedName? (skipBlanks rest)
  let rest ← after? ")" (skipBlanks rest)
  return occurrence s inside name rest

/-- The names of all statements of a file, in order of appearance. -/
def scriptReferences (text : List Char) : List (List Char) :=
  let found := [fromClause?, bareImport?, moduleCall?].flatMap (findAll · text)
  (found.mergeSort fun a b => a.1 ≤ b.1).map (·.2)

/-- The report of a file. -/
def scanScript (text : List Char) : Report :=
  .ofReferences ((scriptReferences text).eraseDups.map String.ofList)

end DepGraph
