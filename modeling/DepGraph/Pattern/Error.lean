/-
  DepGraph — what may be wrong with a pattern.

  * `PatternFault`: the faults in the text of a pattern.
  * `PatternError`: a fault and where it lies, or one of the pattern as a whole.
  * `PatternError.message`: the text of an error.  In a pattern of several lines
    it names the line and the column too.
-/
import DepGraph.Text.Quoted

namespace DepGraph

open DepGraph.Text

/-- A fault in the text of a pattern. -/
inductive PatternFault
  | danglingBackslash
  | unbalancedParenthesis
  | unterminatedGroup
  | unterminatedComment
  | unterminatedSet
  | nothingToRepeat
  | repeatedRepeat
  | leastAboveMost
  | badEscape (text : String)
  | incompleteEscape (text : String)
  | octalTooLarge (text : String)
  | badRange (first last : String)
  | unexpectedEnd
  | unknownExtension (text : String)
  | missingGroupName
  | unterminatedName (closing : Char)
  | badGroupName (name : String)
  | unknownGroupName (name : String)
  | redefinedGroup (name : String) (new old : Nat)
  | invalidGroup (n : Nat)
  | openGroup
  | groupOfSameLookBehind
  | flagsNotAtStart
  | unknownFlag
  | missingFlagEnd
  | missingFlag
  | missingColon
  | localeFlag
  | conflictingFlags
  | wordFlagTurnedOff
  | flagTurnedOnAndOff
  deriving DecidableEq, Repr

/-- The text of a fault. -/
def PatternFault.message : PatternFault → String
  | danglingBackslash => "bad escape (end of pattern)"
  | unbalancedParenthesis => "unbalanced parenthesis"
  | unterminatedGroup => "missing ), unterminated subpattern"
  | unterminatedComment => "missing ), unterminated comment"
  | unterminatedSet => "unterminated character set"
  | nothingToRepeat => "nothing to repeat"
  | repeatedRepeat => "multiple repeat"
  | leastAboveMost => "min repeat greater than max repeat"
  | badEscape text => "bad escape " ++ text
  | incompleteEscape text => "incomplete escape " ++ text
  | octalTooLarge text => "octal escape value " ++ text ++ " outside of range 0-0o377"
  | badRange first last => "bad character range " ++ first ++ "-" ++ last
  | unexpectedEnd => "unexpected end of pattern"
  | unknownExtension text => "unknown extension ?" ++ text
  | missingGroupName => "missing group name"
  | unterminatedName closing => "missing " ++ String.singleton closing ++ ", unterminated name"
  | badGroupName name => "bad character in group name " ++ quoted name
  | unknownGroupName name => "unknown group name " ++ quoted name
  | redefinedGroup name new old =>
    "redefinition of group name " ++ quoted name ++ " as group " ++ toString new ++
      "; was group " ++ toString old
  | invalidGroup n => "invalid group reference " ++ toString n
  | openGroup => "cannot refer to an open group"
  | groupOfSameLookBehind => "cannot refer to group defined in the same lookbehind subpattern"
  | flagsNotAtStart => "global flags not at the start of the expression"
  | unknownFlag => "unknown flag"
  | missingFlagEnd => "missing -, : or )"
  | missingFlag => "missing flag"
  | missingColon => "missing :"
  | localeFlag => "bad inline flags: cannot use 'L' flag with a str pattern"
  | conflictingFlags => "bad inline flags: flags 'a', 'u' and 'L' are incompatible"
  | wordFlagTurnedOff => "bad inline flags: cannot turn off flags 'a', 'u' and 'L'"
  | flagTurnedOnAndOff => "bad inline flags: flag turned on and off"

/-- Why a text is no pattern. -/
inductive PatternError
  /-- A fault before the character at a position. -/
  | fault (cause : PatternFault) (position : Nat)
  /-- What is looked for behind a place has no fixed length. -/
  | unboundedLookBehind
  /-- A count of repetitions is too large. -/
  | countTooLarge
  /-- Words cannot be restricted to ASCII and not restricted at once. -/
  | conflictingWords
  deriving DecidableEq, Repr

/-- The line and the column of a position, both counted from one. -/
def lineAndColumn (text : List Char) (position : Nat) : Nat × Nat :=
  let before := text.take position
  (before.count '\n' + 1, (before.reverse.takeWhile (· != '\n')).length + 1)

/-- The text of an error in a pattern. -/
def PatternError.message (pattern : String) : PatternError → String
  | .fault cause position =>
    let (line, column) := lineAndColumn pattern.toList position
    cause.message ++ " at position " ++ toString position ++
      if pattern.contains '\n' then
        " (line " ++ toString line ++ ", column " ++ toString column ++ ")"
      else ""
  | .unboundedLookBehind => "look-behind requires fixed-width pattern"
  | .countTooLarge => "the repetition number is too large"
  | .conflictingWords => "ASCII and UNICODE flags are incompatible"

end DepGraph
