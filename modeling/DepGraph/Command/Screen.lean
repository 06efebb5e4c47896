/-
  DepGraph — text on the screen.

  Control sequences that a name may hold (such as colours) are not printed, and
  a line ends with a line feed alone.

  * `plain`: a text without control sequences.
  * `screenText`: what some printed texts look like, each on lines of its own.
-/
import DepGraph.Text.Segments

namespace DepGraph

open DepGraph.Text

/-- The rest of a text after a control sequence: after its opening, parameters,
  intermediate characters and a final one. -/
def afterControl? (s : List Char) : Option (List Char) :=
  match s with
  | '\x1b' :: '[' :: rest =>
    let body := rest.dropWhile fun c => '0' ≤ c && c ≤ '?'
    match body.dropWhile fun c => ' ' ≤ c && c ≤ '/' with
    | final :: rest => if '@' ≤ final && final ≤ '~' then some rest else none
    | [] => none
  | _ => none

/-- A text without its control sequences, after `skip` characters of one. -/
def plainFrom : Nat → List Char → List Char
  | _, [] => []
  | skip + 1, _ :: rest => plainFrom skip rest
  | 0, c :: rest =>
    match afterControl? (c :: rest) with
    | some after => plainFrom (rest.length - after.length) rest
    | none => c :: plainFrom 0 rest

/-- A text without its control sequences. -/
def plain (s : String) : String := String.ofList (plainFrom 0 s.toList)

/-- What some printed texts look like, each on lines of its own. -/
def screenText (texts : List String) : String :=
  replaceAll "\r\n" "\n" (String.join (texts.map fun s => plain s ++ "\n"))

end DepGraph
