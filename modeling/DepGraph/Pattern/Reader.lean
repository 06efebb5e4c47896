/-
  DepGraph — reading patterns.

  A pattern is a sequence of alternatives, an alternative a sequence of parts,
  and a part may be followed by a count.  The flags at the start of a pattern
  hold for all of it, those of a group for the group.

  * `Reading.readAlternatives`: the parts of a pattern or a group.
  * `Pattern.read`: the pattern of a text, or what is wrong with it.
-/
import DepGraph.Pattern.Escape

namespace DepGraph

namespace Reading

/-! ## Counts -/

/-- A part of a sequence. -/
inductive Piece
  | part (p : Pattern)
  /-- A group that takes nothing: its parts belong to the sequence around it. -/
  | grouped (ps : List Pattern)

/-- The parts of pieces. -/
def Piece.parts : Piece → List Pattern
  | part p => [p]
  | grouped ps => ps

/-- A piece as one pattern. -/
def Piece.pattern (p : Piece) : Pattern := .ofList p.parts

/-- How often a part is repeated, as the text states it. -/
structure Count where
  least : Nat
  most : Option Nat

/-- A bound of a count. -/
def countBoundOf (digits : List Char) : Reading Nat := do
  let n := numberOf 10 digits
  if Pattern.countBound ≤ n then throw .countTooLarge
  return n

/-- The count between braces, whose opening one is read.  Braces that hold no
  count are characters: then nothing is read. -/
def readBraces : Reading (Option Count) := do
  let before ← get
  if (← peek) == some (.plain '}') then return none
  let lo ← takeDigits
  let hi ← if ← accept ',' then takeDigits else pure lo
  if !(← accept '}') then
    set before
    return none
  let least ← if lo.isEmpty then pure 0 else countBoundOf lo
  if hi.isEmpty then return some ⟨least, none⟩
  let most ← countBoundOf hi
  if most < least then failAt before.position .leastAboveMost
  return some ⟨least, some most⟩

/-- The count that a character starts, if it starts one. -/
def readCount (c : Char) : Reading (Option Count) :=
  match c with
  | '?' => return some ⟨0, some 1⟩
  | '*' => return some ⟨0, none⟩
  | '+' => return some ⟨1, none⟩
  | '{' => readBraces
  | _ => return none

/-- How a repetition is taken, by the character after its count. -/
def readRepetition : Reading Repetition := do
  if ← accept '?' then return .lazy
  if ← accept '+' then return .possessive
  return .greedy

/-- Repeat the last piece; the count starts at a position. -/
def repeatLast (start : Nat) (count : Count) (done : List Piece) : Reading (List Piece) := do
  match done with
  | [] | .part (.place _) :: _ => failAt start .nothingToRepeat
  | .part (.repeated ..) :: _ => failAt start .repeatedRepeat
  | last :: before =>
    let how ← readRepetition
    return .part (.repeated count.least count.most how last.pattern) :: before

/-! ## Alternatives -/

/-- The parts that may be taken out of alternatives which all start with them. -/
def isPlain : Pattern → Bool
  | .char _ | .place _ | .same .. => true
  | _ => false

/-- The parts that all alternatives start with, and what remains of each. -/
def splitCommon : List Pattern → List (List Pattern) → List Pattern × List (List Pattern)
  | [], others => ([], [] :: others)
  | p :: rest, others =>
    if isPlain p && others.all (·.head? == some p) then
      let (common, remaining) := splitCommon rest (others.map (·.drop 1))
      (p :: common, remaining)
    else ([], (p :: rest) :: others)

/-- The members of an alternative that is one character or one of a set. -/
def setItems? : List Pattern → Option (LetterRule × List SetItem)
  | [.char (.literal letters code)] => some (letters, [.single code])
  | [.char (.set letters false items)] => some (letters, items)
  | _ => none

/-- Alternatives as a sequence of parts.  Single characters become a set. -/
def joinAlternatives : List (List Pattern) → List Pattern
  | [] => []
  | [ps] => ps
  | ps :: others =>
    let (common, remaining) := splitCommon ps others
    common ++
      match remaining.mapM setItems? with
      | some ((letters, items) :: more) =>
        if more.all (·.1 == letters) then
          [.char (.set letters false (items ++ more.flatMap (·.2)).eraseDups)]
        else [.ofAlternatives (remaining.map .ofList)]
      | _ => [.ofAlternatives (remaining.map .ofList)]

/-! ## Flags -/

/-- The flag of a letter. -/
def flag? : Char → Option Pattern.Flags
  | 'i' => some { ignoreCase := true }
  | 'm' => some { multiline := true }
  | 's' => some { dotAll := true }
  | 'x' => some { verbose := true }
  | 'a' => some { ascii := true }
  | 'u' => some { unicode := true }
  | _ => none

/-- The flags of both. -/
def union (f g : Pattern.Flags) : Pattern.Flags :=
  ⟨f.ignoreCase || g.ignoreCase, f.multiline || g.multiline, f.dotAll || g.dotAll,
    f.verbose || g.verbose, f.ascii || g.ascii, f.unicode || g.unicode⟩

/-- The flags of the first that are not in the second. -/
def without (f g : Pattern.Flags) : Pattern.Flags :=
  ⟨f.ignoreCase && !g.ignoreCase, f.multiline && !g.multiline, f.dotAll && !g.dotAll,
    f.verbose && !g.verbose, f.ascii && !g.ascii, f.unicode && !g.unicode⟩

/-- What words are is restricted or not. -/
def setsWords (f : Pattern.Flags) : Bool := f.ascii || f.unicode

/-- The flags within a group that turns some on and some off. -/
def withinGroup (f on off : Pattern.Flags) : Pattern.Flags :=
  let f := if setsWords on then { f with ascii := false, unicode := false } else f
  without (union f on) off

/-- A letter that is no flag. -/
def failFlag (t : PatternToken) (otherwise : PatternFault) : Reading α :=
  match t with
  | .plain c =>
    let isLetter := Text.isWordChar c && !Text.isDecimalDigit c && c != '_'
    fail (if isLetter then .unknownFlag else otherwise) 1
  | t => fail otherwise t.text.length

/-- The flags that are turned on, from their first letter, and the character
  after them. -/
def readFlagsOn : Nat → Char → Pattern.Flags → Reading (Pattern.Flags × Char)
  | 0, c, on => return (on, c)
  | limit + 1, c, on => do
    if c == 'L' then fail .localeFlag 0
    let flag := (flag? c).getD {}
    let on := union on flag
    if setsWords flag && on.ascii && on.unicode then fail .conflictingFlags 0
    match ← take with
    | none => fail .missingFlagEnd 0
    | some (.plain d) =>
      if d == ')' || d == '-' || d == ':' then return (on, d)
      else if d == 'L' || (flag? d).isSome then readFlagsOn limit d on
      else failFlag (.plain d) .missingFlagEnd
    | some t => failFlag t .missingFlagEnd

/-- The flags that are turned off, up to the colon. -/
def readFlagsOff : Nat → Pattern.Flags → PatternFault → Reading Pattern.Flags
  | 0, off, _ => return off
  | limit + 1, off, missing => do
    match ← take with
    | none => fail missing 0
    | some (.plain c) =>
      if c == ':' && missing == .missingColon then return off
      else if c == 'L' then fail .wordFlagTurnedOff 0
      else
        match flag? c with
        | none => failFlag (.plain c) missing
        | some flag =>
          if setsWords flag then fail .wordFlagTurnedOff 0
          else readFlagsOff limit (union off flag) .missingColon
    | some t => failFlag t missing

/-- What the flags of a group hold for. -/
inductive FlagScope
  /-- The whole pattern. -/
  | whole (on : Pattern.Flags)
  /-- The group. -/
  | group (on off : Pattern.Flags)

/-- The flags of a group, from their first character. -/
def readFlags (c : Char) : Reading FlagScope := do
  let limit := (← get).rest.length + 1
  let (on, ending) ← if c == '-' then pure ({}, '-') else readFlagsOn limit c {}
  if ending == ')' then return .whole on
  let off ← if ending == '-' then readFlagsOff limit {} .missingFlag else pure {}
  if without on off != on then fail .flagTurnedOnAndOff 1
  return .group on off

/-! ## Groups -/

/-- The span of a pattern, from those of the groups so far. -/
def spanOf (p : Pattern) : Reading Pattern.Span := do
  let groups := (← get).groups
  return p.span fun n => (groups[n - 1]?).join.getD ⟨0, 0⟩

/-- Open a group that takes its text, and give its number. -/
def openGroup (name : Option String) : Reading Nat := do
  let s ← get
  let n := s.groups.length + 1
  set { s with groups := s.groups ++ [none] }
  if let some name := name then
    if let some (_, old) := s.names.find? (·.1 == name) then
      fail (.redefinedGroup name n old) (name.length + 1)
    modify fun s => { s with names := s.names ++ [(name, n)] }
  return n

/-- Close a group. -/
def closeGroup (n : Nat) (p : Pattern) : Reading Unit := do
  let span ← spanOf p
  modify fun s => { s with groups := s.groups.set (n - 1) (some span) }

/-- The text of a group by its name. -/
def readNamedReference (flags : Pattern.Flags) : Reading Pattern := do
  let name ← takeName ')'
  match (← get).names.find? (·.1 == name) with
  | none => fail (.unknownGroupName name) (name.length + 1)
  | some (_, n) =>
    checkGroup n (name.length + 1)
    return .same flags.letters n

/-- Read a comment that starts at a position, up to its closing parenthesis. -/
def skipComment (start : Nat) : Nat → Reading Unit
  | 0 => return
  | limit + 1 => do
    match ← peek with
    | none => failAt start .unterminatedComment
    | some _ => if (← take) == some (.plain ')') then return else skipComment start limit

/-- Read up to the end of the line. -/
def skipLine : Nat → Reading Unit
  | 0 => return
  | limit + 1 => do
    match ← take with
    | none | some (.plain '\n') => return
    | some _ => skipLine limit

/-- What a group is, by what follows its opening parenthesis. -/
inductive GroupKind
  /-- It takes its text, and may have a name. -/
  | taking (name : Option String)
  | plain (flags : Pattern.Flags)
  | atomic
  | look (behind negated : Bool)
  /-- There is no group: it stands for these pieces, or sets flags. -/
  | none (pieces : List Piece) (flags : Option Pattern.Flags)

/-- The kind of an extension that is not known; it ends with the token `t`. -/
def failExtension (before : List Char) (t : PatternToken) : Reading α :=
  fail (.unknownExtension (String.ofList (before ++ t.text)))
    (before.length + t.text.length + 1)

/-- The next token, which must be there. -/
def takeSome : Reading PatternToken := do
  match ← take with
  | some t => return t
  | none => fail .unexpectedEnd 0

/-- What the group is whose opening parenthesis stands at a position. -/
def readGroupKind (flags : Pattern.Flags) (start : Nat) : Reading GroupKind := do
  if !(← accept '?') then return .taking none
  match ← takeSome with
  | .plain 'P' =>
    if ← accept '<' then return .taking (← takeName '>')
    if ← accept '=' then return .none [.part (← readNamedReference flags)] none
    failExtension ['P'] (← takeSome)
  | .plain ':' => return .plain flags
  | .plain '#' =>
    skipComment start ((← get).rest.length + 1)
    return .none [] none
  | .plain '=' => return .look false false
  | .plain '!' => return .look false true
  | .plain '<' =>
    match ← takeSome with
    | .plain '=' => return .look true false
    | .plain '!' => return .look true true
    | t => failExtension ['<'] t
  | .plain '>' => return .atomic
  | t =>
    match t with
    | .plain c =>
      if c == '-' || c == 'L' || (flag? c).isSome then
        match ← readFlags c with
        | .whole on => return .none [] (some on)
        | .group on off => return .plain (withinGroup flags on off)
      else failExtension [] t
    | t => failExtension [] t

/-- Note that a look-behind opens; what was noted before. -/
def enterLook (behind : Bool) : Reading (Option Nat) := do
  let s ← get
  if behind && s.groupsBeforeLook.isNone then
    set { s with groupsBeforeLook := some s.groups.length }
  return s.groupsBeforeLook

/-- The pattern of a look at what stands around a place. -/
def lookPattern (behind negated : Bool) (p : Pattern) : Reading Pattern := do
  if !behind then return .look none negated p
  let span ← spanOf p
  if span.least != span.most then modify fun s => { s with unbounded := true }
  return .look (some span.least) negated p

/-- The pattern of a character that is no group and no count. -/
def readPlain (flags : Pattern.Flags) (start : Nat) (c : Char) : Reading Pattern :=
  match c with
  | '[' => readSet flags start
  | '.' => return .char (.any flags.dotAll)
  | '^' => return .place (if flags.multiline then .lineStart else .textStart)
  | '$' => return .place (if flags.multiline then .lineEnd else .closingLineEnd)
  | c => return .char (.literal flags.letters c.toNat)

mutual

/-- The alternatives up to the end of the pattern or the group; `outermost`
  tells that they are those of the pattern itself. -/
def readAlternatives (outermost : Bool) :
    Nat → Pattern.Flags → Reading (List Pattern)
  | 0, _ => return []
  | fuel + 1, flags => do
    let first ← readSequence outermost fuel flags []
    let others ← readFurther outermost fuel flags
    return joinAlternatives (first :: others)

/-- The alternatives after the first one. -/
def readFurther (outermost : Bool) : Nat → Pattern.Flags → Reading (List (List Pattern))
  | 0, _ => return []
  | fuel + 1, flags => do
    if !(← accept '|') then return []
    let s ← get
    let flags := if outermost then s.flags else flags
    let next ← readSequence false fuel flags []
    return next :: (← readFurther outermost fuel flags)

/-- A sequence of parts; `mayFlag` tells that flags of the whole pattern may
  come, and `done` are the pieces so far, last first. -/
def readSequence (mayFlag : Bool) : Nat → Pattern.Flags → List Piece → Reading (List Pattern)
  | 0, _, done => return done.reverse.flatMap Piece.parts
  | fuel + 1, flags, done => do
    let start := (← get).position
    match ← peek with
    | none | some (.plain '|') | some (.plain ')') => return done.reverse.flatMap Piece.parts
    | some t =>
      let _ ← take
      match t with
      | .escaped c => readSequence mayFlag fuel flags (.part (← readEscape flags c) :: done)
      | .dangling => failAt start .danglingBackslash
      | .plain c =>
        if flags.verbose && isAsciiBlank c then readSequence mayFlag fuel flags done
        else if flags.verbose && c == '#' then
          skipLine ((← get).rest.length + 1)
          readSequence mayFlag fuel flags done
        else if c == '(' then
          match ← readGroupKind flags start with
          | .none pieces none => readSequence mayFlag fuel flags (pieces ++ done)
          | .none pieces (some on) =>
            if !mayFlag || !done.isEmpty then failAt start .flagsNotAtStart
            let flags := union (← get).flags on
            modify fun s => { s with flags := flags }
            readSequence mayFlag fuel flags (pieces ++ done)
          | kind =>
            readSequence mayFlag fuel flags ((← readGroup fuel flags start kind) :: done)
        else
          match ← readCount c with
          | some count => readSequence mayFlag fuel flags (← repeatLast start count done)
          | none => readSequence mayFlag fuel flags (.part (← readPlain flags start c) :: done)

/-- The group of a kind whose opening parenthesis stands at a position. -/
def readGroup : Nat → Pattern.Flags → Nat → GroupKind → Reading Piece
  | 0, _, _, _ => return .grouped []
  | fuel + 1, flags, start, kind => do
    let body : Pattern.Flags → Reading (List Pattern) := fun flags => do
      let parts ← readAlternatives false fuel flags
      if !(← accept ')') then failAt start .unterminatedGroup
      return parts
    match kind with
    | .taking name =>
      let n ← openGroup name
      let p := Pattern.ofList (← body flags)
      closeGroup n p
      return .part (.group n p)
    | .plain flags => return .grouped (← body flags)
    | .atomic => return .part (.atomic (.ofList (← body flags)))
    | .look behind negated =>
      let outside ← enterLook behind
      let parts ← readAlternatives false fuel flags
      modify fun s => { s with groupsBeforeLook := outside }
      if !(← accept ')') then failAt start .unterminatedGroup
      return .part (← lookPattern behind negated (.ofList parts))
    | .none .. => return .grouped []

end

/-- Read a whole pattern. -/
def readPattern : Reading Pattern := do
  checkDangling
  let parts ← readAlternatives true (4 * (← get).rest.length + 4) {}
  let s ← get
  if s.flags.ascii && s.flags.unicode then throw .conflictingWords
  if !s.rest.isEmpty then fail .unbalancedParenthesis 0
  if s.unbounded then throw .unboundedLookBehind
  return .ofList parts

end Reading

/-- The pattern of a text. -/
def Pattern.read (text : String) : Except PatternError Pattern :=
  (Reading.readPattern.run { rest := patternTokens text.toList }).map (·.1)

end DepGraph
