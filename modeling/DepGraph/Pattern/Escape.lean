/-
  DepGraph — escapes and sets of a pattern.

  * `readEscape`: the pattern of a backslash and the character after it: a
    place, a class of characters, a character by its number, a group that is
    referred to, or the character itself unless it is a letter.
  * `readSet`: the set between two brackets.  A closing bracket in the first
    place belongs to the set.
-/
import DepGraph.Decimal.Integer
import DepGraph.Pattern.Token

namespace DepGraph.Reading

open DepGraph.Decimal DepGraph.Text

/-- The characters with an escape of their own. -/
def controlEscape? : Char → Option Nat
  | 'a' => some 7
  | 'b' => some 8
  | 'f' => some 12
  | 'n' => some 10
  | 'r' => some 13
  | 't' => some 9
  | 'v' => some 11
  | '\\' => some 92
  | _ => none

/-- The classes with an escape, and whether what lies outside is meant. -/
def classEscape? : Char → Option (CharClass × Bool)
  | 'd' => some (.digit, false)
  | 'D' => some (.digit, true)
  | 's' => some (.blank, false)
  | 'S' => some (.blank, true)
  | 'w' => some (.word, false)
  | 'W' => some (.word, true)
  | _ => none

/-- The places with an escape. -/
def placeEscape? (ascii : Bool) : Char → Option Anchor
  | 'A' => some .textStart
  | 'Z' => some .textEnd
  | 'b' => some (.wordEdge ascii)
  | 'B' => some (.noWordEdge ascii)
  | _ => none

/-- The digits that an escape by number in base sixteen has. -/
def hexLength? : Char → Option Nat
  | 'x' => some 2
  | 'u' => some 4
  | 'U' => some 8
  | _ => none

/-- A digit in base eight. -/
def isOctal (c : Char) : Bool := '0' ≤ c && c ≤ '7'

/-- The value of digits in base eight or ten. -/
def numberOf (base : Nat) (digits : List Char) : Nat :=
  ofDigits base (digits.map fun c => c.toNat - 48)

/-- A backslash and what follows it. -/
def escapeText (cs : List Char) : String := String.ofList ('\\' :: cs)

/-- Fail because an escape stands for nothing. -/
def failEscape (cs : List Char) : Reading α := fail (.badEscape (escapeText cs)) (cs.length + 1)

/-- The code point of an escape in base sixteen. -/
def readHexEscape (c : Char) (length : Nat) : Reading Nat := do
  let digits ← takeWhile (fun d => (hexValue? d).isSome) length
  if digits.length < length then
    fail (.incompleteEscape (escapeText (c :: digits))) (digits.length + 2)
  let code := ofDigits 16 (digits.filterMap hexValue?)
  if 0x10FFFF < code then failEscape (c :: digits)
  return code

/-- The code point of an escape in base eight. -/
def octalCode (digits : List Char) : Reading Nat := do
  let code := numberOf 8 digits
  if 0xFF < code then fail (.octalTooLarge (escapeText digits)) (digits.length + 1)
  return code

/-- The character that an escape stands for when it is nothing else: itself,
  unless it is an ASCII letter. -/
def readOtherEscape (c : Char) : Reading Nat :=
  if c.isAlpha then failEscape [c] else return c.toNat

/-- Check that a group may be referred to here. -/
def checkGroup (n back : Nat) : Reading Unit := do
  let s ← get
  if (s.groups[n - 1]?).join.isNone then fail .openGroup back
  if s.groupsBeforeLook.any (· < n) then fail .groupOfSameLookBehind 0

/-- The group that an escape refers to, or the character that three octal digits
  stand for. -/
def readNumberEscape (letters : LetterRule) (first : Char) : Reading Pattern := do
  let second ← takeWhile Char.isDigit 1
  let third ← if isOctal first && !second.isEmpty && second.all isOctal then takeWhile isOctal 1
    else pure []
  let digits := first :: second ++ third
  if !third.isEmpty then return .char (.literal letters (← octalCode digits))
  let n := numberOf 10 digits
  if (← get).groups.length < n then fail (.invalidGroup n) digits.length
  checkGroup n (digits.length + 1)
  return .same letters n

/-- The pattern of an escape. -/
def readEscape (flags : Pattern.Flags) (c : Char) : Reading Pattern := do
  let literal := fun code => Pattern.char (.literal flags.letters code)
  if let some a := placeEscape? flags.ascii c then return .place a
  if let some (kind, outside) := classEscape? c then
    return .char (.set flags.letters false [.class kind outside flags.ascii])
  if let some code := controlEscape? c then return literal code
  if let some length := hexLength? c then return literal (← readHexEscape c length)
  if c == '0' then
    return literal (numberOf 8 (c :: (← takeWhile isOctal 2)))
  if c.isDigit then readNumberEscape flags.letters c
  else return literal (← readOtherEscape c)

/-- The member of a set that an escape stands for. -/
def readSetEscape (flags : Pattern.Flags) (c : Char) : Reading SetItem := do
  if let some code := controlEscape? c then return .single code
  if let some (kind, outside) := classEscape? c then return .class kind outside flags.ascii
  if let some length := hexLength? c then return .single (← readHexEscape c length)
  if isOctal c then
    return .single (← octalCode (c :: (← takeWhile isOctal 2)))
  if c.isDigit then failEscape [c]
  else return .single (← readOtherEscape c)

/-- A member of a set, from its first token. -/
def readSetItem (flags : Pattern.Flags) : PatternToken → Reading SetItem
  | .escaped c => readSetEscape flags c
  | .plain c => return .single c.toNat
  | .dangling => return .single '\\'.toNat

/-- The range between two members. -/
def rangeOf (first last : PatternToken) (a b : SetItem) : Reading SetItem := do
  match a, b with
  | .single lo, .single hi => if lo ≤ hi then return .range lo hi
  | _, _ => pure ()
  fail (.badRange (String.ofList first.text) (String.ofList last.text))
    (first.text.length + 1 + last.text.length)

/-- The members of a set up to its closing bracket; `items` are those before. -/
def readSetItems (flags : Pattern.Flags) (start : Nat) :
    Nat → List SetItem → Reading (List SetItem)
  | 0, items => return items
  | limit + 1, items => do
    let some first ← take | failAt start .unterminatedSet
    if first == .plain ']' && !items.isEmpty then return items
    let a ← readSetItem flags first
    if !(← accept '-') then readSetItems flags start limit (items ++ [a])
    else
      let some last ← take | failAt start .unterminatedSet
      if last == .plain ']' then return items ++ [a, .single '-'.toNat]
      let b ← readSetItem flags last
      readSetItems flags start limit (items ++ [← rangeOf first last a b])

/-- The test of a set; a set of one character is that character. -/
def setTest (letters : LetterRule) (outside : Bool) (items : List SetItem) : CharTest :=
  match items.eraseDups, outside with
  | [.single code], false => .literal letters code
  | [.single code], true => .otherThan letters code
  | items, outside => .set letters outside items

/-- The set whose opening bracket stands at a position. -/
def readSet (flags : Pattern.Flags) (start : Nat) : Reading Pattern := do
  let outside ← accept '^'
  let items ← readSetItems flags start ((← get).rest.length + 1) []
  return .char (setTest flags.letters outside items)

end DepGraph.Reading
