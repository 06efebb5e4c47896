/-
  DepGraph — tests of a single character.

  A test accepts one character: any, a given one or any other than it, one of a
  set or one outside it.  Letters may be compared without regard to their case:
  then the lower-case form of the text is compared with the lower-case forms of
  the pattern and with the letters that share their upper-case form.

  * `CharTest`: the tests.
  * `LetterRule`: how letters are compared.
  * `CharTest.accepts`: a character passes a test.
-/
import DepGraph.Text.Blank
import DepGraph.Text.Digit
import DepGraph.Text.LetterCase
import DepGraph.Text.Word

namespace DepGraph

open DepGraph.Text

/-- How letters are compared. -/
inductive LetterRule
  | exact
  /-- Without regard to case. -/
  | anyCase
  /-- Without regard to the case of ASCII letters. -/
  | asciiCase
  deriving DecidableEq, Repr

/-- A class of characters. -/
inductive CharClass
  | digit
  | blank
  | word
  deriving DecidableEq, Repr

/-- A member of a set of characters. -/
inductive SetItem
  | single (code : Nat)
  | range (first last : Nat)
  /-- The characters of a class, or those outside it; `ascii` restricts the class. -/
  | class (kind : CharClass) (outside ascii : Bool)
  deriving DecidableEq, Repr

/-- A test of a single character. -/
inductive CharTest
  /-- Any character; a line feed only if told so. -/
  | any (lineFeed : Bool)
  | literal (letters : LetterRule) (code : Nat)
  | otherThan (letters : LetterRule) (code : Nat)
  | set (letters : LetterRule) (outside : Bool) (items : List SetItem)
  deriving DecidableEq, Repr

/-- The ASCII blanks. -/
def isAsciiBlank (c : Char) : Bool := c == ' ' || ('\t' ≤ c && c ≤ '\r')

/-- The characters of a class. -/
def CharClass.holds (kind : CharClass) (ascii : Bool) (c : Char) : Bool :=
  match kind, ascii with
  | .digit, false => isDecimalDigit c
  | .digit, true => c.isDigit
  | .blank, false => isBlank c
  | .blank, true => isAsciiBlank c
  | .word, false => isWordChar c
  | .word, true => isAsciiWordChar c

/-- The lower-case form under a rule. -/
def LetterRule.fold : LetterRule → Nat → Nat
  | .exact, c => c
  | .anyCase, c => lower c
  | .asciiCase, c => asciiLower c

/-- A code point has another case under a rule. -/
def LetterRule.isCased : LetterRule → Nat → Bool
  | .exact, _ => false
  | .anyCase, c => Text.isCased c
  | .asciiCase, c => asciiLower c != c || (97 ≤ c && c ≤ 122)

/-- One more than the last code point of the first plane. -/
def planeZeroEnd : Nat := 0x10000

/-- Two code points are the same letter under a rule. -/
def LetterRule.same (rule : LetterRule) (code c : Nat) : Bool :=
  if !rule.isCased code then c == code
  else
    match rule with
    | .anyCase => (caseVariants (lower code)).contains (lower c)
    | rule => rule.fold c == rule.fold code

namespace SetItem

/-- A member makes the text be compared by its lower-case forms. -/
def isCased (rule : LetterRule) : SetItem → Bool
  | .single code => rule != .exact && (planeZeroEnd ≤ code || rule.isCased code)
  | .range first last =>
    rule != .exact &&
      (planeZeroEnd ≤ last || (List.range (last - first + 1)).any fun i => rule.isCased (first + i))
  | .class .. => false

/-- The code points from which a set of letters is matched by `c`: those with
  this lower-case form, and with those of letters that share its upper-case form. -/
def sources (rule : LetterRule) (c : Nat) : List Nat :=
  match rule with
  | .exact => [c]
  | .anyCase => (caseVariants c).flatMap fun v => v :: upperForms v
  | .asciiCase => if 97 ≤ c && c ≤ 122 then [c, c - 32] else [c]

/-- A code point, which is in its lower-case form if the set has members with
  cases, belongs to a range. -/
def inRange (rule : LetterRule) (first last c : Nat) : Bool :=
  let within := fun x => first ≤ x && x ≤ last
  if rule == .exact then within c
  else
    (sources rule c).any (fun x => within x && x < planeZeroEnd) ||
      (planeZeroEnd ≤ last && (within c || within (upperBeyondPlaneZero c)))

/-- A code point, which is in its lower-case form if the set has members with
  cases, belongs to a member. -/
def holds (rule : LetterRule) (c : Nat) : SetItem → Bool
  | .single code =>
    if rule == .exact || planeZeroEnd ≤ code then c == code
    else (sources rule c).contains code
  | .range first last => inRange rule first last c
  | .class kind outside ascii => kind.holds ascii (Char.ofNat c) != outside

end SetItem

/-- A code point belongs to one of the members. -/
def holdsAny (rule : LetterRule) (items : List SetItem) (c : Nat) : Bool :=
  let folded := rule.fold c
  let c' := if folded != c && items.any (SetItem.isCased rule) then folded else c
  items.any (SetItem.holds rule c')

/-- A character passes a test. -/
def CharTest.accepts (t : CharTest) (c : Char) : Bool :=
  match t with
  | .any lineFeed => lineFeed || c != '\n'
  | .literal letters code => letters.same code c.toNat
  | .otherThan letters code => !letters.same code c.toNat
  | .set letters outside items => holdsAny letters items c.toNat != outside

end DepGraph
