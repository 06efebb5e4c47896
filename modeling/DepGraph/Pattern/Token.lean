/-
  DepGraph — the text of a pattern as tokens, and reading them.

  A token is a character, or a backslash and the character after it.  The reader
  holds the tokens still to come, the position of the next one, and what is
  known of the groups so far.

  * `PatternToken`, `patternTokens`: the tokens of a text.
  * `Reading`: actions that read tokens and may fail.
  * `take`, `accept`, `takeDigits`, `takeName`: the basic actions.  No action may
    come to stand before a backslash that ends the text.
-/
import DepGraph.Pattern.Basic
import DepGraph.Pattern.Error
import DepGraph.Text.Identifier

namespace DepGraph

open DepGraph.Text

/-- A token of a pattern. -/
inductive PatternToken
  | plain (c : Char)
  | escaped (c : Char)
  /-- A backslash that ends the text. -/
  | dangling
  deriving DecidableEq, Repr

/-- The text of a token. -/
def PatternToken.text : PatternToken → List Char
  | plain c => [c]
  | escaped c => ['\\', c]
  | dangling => ['\\']

/-- The tokens of a text. -/
def patternTokens : List Char → List PatternToken
  | [] => []
  | ['\\'] => [.dangling]
  | '\\' :: c :: rest => .escaped c :: patternTokens rest
  | c :: rest => .plain c :: patternTokens rest

/-- What the reader of patterns knows. -/
structure PatternState where
  /-- The tokens still to come. -/
  rest : List PatternToken
  /-- The position of the next token. -/
  position : Nat := 0
  /-- The flags that hold for the whole pattern. -/
  flags : Pattern.Flags := {}
  /-- The groups that have names. -/
  names : List (String × Nat) := []
  /-- The spans of the groups; an open group has none yet. -/
  groups : List (Option Pattern.Span) := []
  /-- Within a look-behind: how many groups there were before it. -/
  groupsBeforeLook : Option Nat := none
  /-- Some look-behind has no fixed length. -/
  unbounded : Bool := false

/-- Actions that read tokens of a pattern. -/
abbrev Reading := StateT PatternState (Except PatternError)

namespace Reading

/-- Fail with a fault at a position. -/
def failAt (position : Nat) (cause : PatternFault) : Reading α :=
  throw (.fault cause position)

/-- Fail with a fault that lies some characters before the next token. -/
def fail (cause : PatternFault) (back : Nat) : Reading α := do
  failAt ((← get).position - back) cause

/-- Fail if a backslash that ends the text comes next. -/
def checkDangling : Reading Unit := do
  let s ← get
  if s.rest.head? == some .dangling then failAt s.position .danglingBackslash

/-- The next token, which is not read. -/
def peek : Reading (Option PatternToken) := do return (← get).rest.head?

/-- Read the next token. -/
def take : Reading (Option PatternToken) := do
  let s ← get
  match s.rest with
  | [] => return none
  | t :: rest =>
    set { s with rest := rest, position := s.position + t.text.length }
    checkDangling
    return some t

/-- Read the next token if it is a certain character. -/
def accept (c : Char) : Reading Bool := do
  if (← peek) == some (.plain c) then
    let _ ← take
    return true
  return false

/-- Read at most `limit` characters that pass a test. -/
def takeWhile (p : Char → Bool) : Nat → Reading (List Char)
  | 0 => return []
  | limit + 1 => do
    match ← peek with
    | some (.plain c) =>
      if p c then
        let _ ← take
        return c :: (← takeWhile p limit)
      else return []
    | _ => return []

/-- Read the ASCII digits that come next. -/
def takeDigits : Reading (List Char) := do takeWhile Char.isDigit (← get).rest.length

/-- Read tokens up to a closing character, which is read too. -/
def takeNameWithin (closing : Char) : Nat → List Char → Reading (List Char)
  | 0, name => return name
  | limit + 1, name => do
    match ← take with
    | none =>
      if name.isEmpty then fail .missingGroupName 0
      else fail (.unterminatedName closing) name.length
    | some t =>
      if t == .plain closing then
        if name.isEmpty then fail .missingGroupName 1 else return name
      else takeNameWithin closing limit (name ++ t.text)

/-- Read the name of a group up to a closing character. -/
def takeName (closing : Char) : Reading String := do
  let name ← takeNameWithin closing ((← get).rest.length + 1) []
  if !isIdentifier name then fail (.badGroupName (String.ofList name)) (name.length + 1)
  return String.ofList name

end Reading

end DepGraph
