/-
  DepGraph — taking a statement apart from its front.

  * `after?`: what follows a fixed word.
  * `run?`: the longest run of characters of a class, not empty, and the rest.
  * `skipBlanks`, `blanks?`: the rest after any blanks, or after at least one.
  * `keyword?`: what follows a keyword that starts a line.
  * `findFirst`: what is found at the first place where something is.
  * `Occurrence`, `findAll`: all places of a text where a statement starts, from
    left to right and not overlapping.
-/
import DepGraph.Text.Blank
import DepGraph.Text.Word

namespace DepGraph.Text

/-- What follows a fixed word. -/
def after? (word : String) (s : List Char) : Option (List Char) := word.toList.isPrefixOf? s

/-- The longest run of characters of a class, if it is not empty, and the rest. -/
def run? (p : Char → Bool) (s : List Char) : Option (List Char × List Char) :=
  match s.takeWhile p with
  | [] => none
  | run => some (run, s.dropWhile p)

/-- What follows the blanks at the front. -/
def skipBlanks (s : List Char) : List Char := s.dropWhile isBlank

/-- What follows the blanks at the front, of which there must be one. -/
def blanks? (s : List Char) : Option (List Char) := (run? isBlank s).map (·.2)

/-- What follows a keyword at the start of a line and the blanks after it. -/
def keyword? (word : String) (line : List Char) : Option (List Char) :=
  (after? word (skipBlanks line)).bind blanks?

/-- What is found at the first place of a text where something is. -/
def findFirst (find : List Char → Option α) : List Char → Option α
  | [] => none
  | c :: rest => (find (c :: rest)).orElse fun _ => findFirst find rest

/-- A word ends between these two characters: one of them is no word character. -/
def isWordEdge (before after : Option Char) : Bool :=
  (before.map isWordChar).getD false != (after.map isWordChar).getD false

/-- A statement found at the front of a text: the text it names, where that
  starts, and the length of the statement. -/
structure Occurrence where
  name : List Char
  offset : Nat
  length : Nat

/-- All statements of a text with the positions of what they name.  `find` gets
  the character before the place; the first `skip` characters belong to the
  statement before. -/
def findAllFrom (find : Option Char → List Char → Option Occurrence) :
    Nat → Nat → Option Char → List Char → List (Nat × List Char)
  | _, _, _, [] => []
  | pos, skip + 1, _, c :: rest => findAllFrom find (pos + 1) skip (some c) rest
  | pos, 0, before, c :: rest =>
    match find before (c :: rest) with
    | some o =>
      (pos + o.offset, o.name) :: findAllFrom find (pos + 1) (o.length - 1) (some c) rest
    | none => findAllFrom find (pos + 1) 0 (some c) rest

/-- All statements of a text with the positions of what they name. -/
def findAll (find : Option Char → List Char → Option Occurrence) (s : List Char) :
    List (Nat × List Char) :=
  findAllFrom find 0 0 none s

end DepGraph.Text
