/-
  DepGraph — `#include` directives.

  A line `#include <path>` or `#include "path"` refers to a file.  Blanks may
  stand before and after the `#` and before the path, none within it.

  * `includePath?`: the path of a directive.
  * `scanIncludeLine`, `scanIncludes`: the report of a line and of a file.
-/
import DepGraph.Report
import DepGraph.Text.Lines
import DepGraph.Text.Scan

namespace DepGraph

open DepGraph.Text

/-- The path between two delimiters at the front of a text. -/
def delimited? (opening closing : Char) (s : List Char) : Option (List Char) := do
  let inside ← after? (String.singleton opening) s
  let (path, rest) ← run? (fun c => !isBlank c && c != closing) inside
  if rest.head? == some closing then some path else none

/-- The path of an `#include` directive. -/
def includePath? (line : List Char) : Option (List Char) := do
  let rest ← after? "#" (skipBlanks line)
  let rest ← after? "include" (skipBlanks rest)
  let rest := skipBlanks rest
  (delimited? '<' '>' rest).orElse fun _ => delimited? '"' '"' rest

/-- The report of one line. -/
def scanIncludeLine (line : List Char) : Report :=
  .ofReferences ((includePath? line).map String.ofList).toList

/-- The report of a file: the directives of its lines in order. -/
def scanIncludes (text : List Char) : Report := .mergeAll ((lines text).map scanIncludeLine)

end DepGraph
