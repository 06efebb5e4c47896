/-
  DepGraph — blank characters, trimming and words.

  Blank means Unicode white space together with the four ASCII information
  separators `U+001C` to `U+001F`.  Zero-width characters (`U+200B`, `U+FEFF`)
  are not blank.

  * `isBlank`: the class.
  * `trim`, `trimLeft`, `trimRight`: a text without the blanks at its ends.
  * `words`: the maximal runs of characters that are not blank.
-/

namespace DepGraph.Text

/-- White space of every script, and the ASCII information separators. -/
def isBlank (c : Char) : Bool :=
  let n := c.toNat
  (9 ≤ n && n ≤ 13) || (28 ≤ n && n ≤ 32) || n == 0x85 || n == 0xA0 || n == 0x1680 ||
    (0x2000 ≤ n && n ≤ 0x200A) || n == 0x2028 || n == 0x2029 || n == 0x202F || n == 0x205F ||
    n == 0x3000

/-- A text without its leading blanks. -/
def trimLeft (s : List Char) : List Char := s.dropWhile isBlank

/-- A text without its trailing blanks. -/
def trimRight (s : List Char) : List Char := (s.reverse.dropWhile isBlank).reverse

/-- A text without the blanks at its ends. -/
def trim (s : List Char) : List Char := trimRight (trimLeft s)

/-- The maximal runs of characters outside a class, given the run that is open. -/
def runsOutside (p : Char → Bool) : List Char → List Char → List (List Char)
  | run, [] => if run.isEmpty then [] else [run.reverse]
  | run, c :: rest =>
    if p c then
      if run.isEmpty then runsOutside p [] rest else run.reverse :: runsOutside p [] rest
    else runsOutside p (c :: run) rest

/-- The words of a text: its maximal runs of characters that are not blank. -/
def words (s : List Char) : List (List Char) := runsOutside isBlank [] s

end DepGraph.Text
