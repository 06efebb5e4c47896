/-
  DepGraph — finding patterns in a text.

  A pattern is matched from a position, and what follows it is a test of the
  position where it ends.  The ways in which a pattern fits are tried in order
  until one passes the test.

  A repetition goes on only from a position other than the one from which it
  last went on, so a part that takes nothing is not repeated without end.

  * `Pattern.run`: the first way in which a pattern fits from a position.
  * `Pattern.occursIn`: a pattern fits somewhere.
  * `Pattern.starts`: where the successive occurrences of a pattern start.
-/
import DepGraph.Pattern.Basic

namespace DepGraph

open DepGraph.Text

/-- The texts that groups took, as the positions where they start and end. -/
abbrev Taken := List (Nat × Nat × Nat)

/-- Where the text of a group starts and ends. -/
def Taken.span? (taken : Taken) (n : Nat) : Option (Nat × Nat) :=
  (taken.find? (·.1 == n)).map (·.2)

/-- What follows a part: an answer, or none, from a position. -/
abbrev Follow (α : Type) := Nat → Taken → Option α

/-- A character is part of a word. -/
def isOfWord (ascii : Bool) (c : Option Char) : Bool :=
  c.any fun c => if ascii then isAsciiWordChar c else isWordChar c

/-- A position is the start or the end of a word. -/
def isEdge (text : Array Char) (ascii : Bool) (pos : Nat) : Bool :=
  let before := if pos = 0 then none else text[pos - 1]?
  isOfWord ascii before != isOfWord ascii text[pos]?

/-- A position is a place in the text.  In a text without characters there are
  no word edges, nor places that are none. -/
def Anchor.holdsAt (a : Anchor) (text : Array Char) (pos : Nat) : Bool :=
  match a with
  | .textStart => pos == 0
  | .textEnd => pos == text.size
  | .lineStart => pos == 0 || text[pos - 1]? == some '\n'
  | .lineEnd => pos == text.size || text[pos]? == some '\n'
  | .closingLineEnd =>
    pos == text.size || (pos + 1 == text.size && text[pos]? == some '\n')
  | .wordEdge ascii => !text.isEmpty && isEdge text ascii pos
  | .noWordEdge ascii => !text.isEmpty && !isEdge text ascii pos

/-- The character at a position passes a test. -/
def CharTest.acceptsAt (t : CharTest) (text : Array Char) (pos : Nat) : Bool :=
  (text[pos]?).any t.accepts

/-- How many characters from a position on pass a test, at most `limit`. -/
def countAccepted (t : CharTest) (text : Array Char) : Nat → Nat → Nat → Nat
  | 0, _, n => n
  | limit + 1, pos, n =>
    if t.acceptsAt text pos then countAccepted t text limit (pos + 1) (n + 1) else n

/-- Try the positions from `pos + n` down to `pos`. -/
def tryDown (k : Nat → Option α) (pos : Nat) : Nat → Option α
  | 0 => k pos
  | n + 1 =>
    match k (pos + n + 1) with
    | some a => some a
    | none => tryDown k pos n

/-- Try the positions from `pos` to `pos + n`. -/
def tryUp (k : Nat → Option α) : Nat → Nat → Option α
  | 0, pos => k pos
  | n + 1, pos =>
    match k pos with
    | some a => some a
    | none => tryUp k n (pos + 1)

/-- The repetition of a single character, of which `most` may be taken. -/
def repeatChar (t : CharTest) (text : Array Char) (least : Nat) (most : Option Nat)
    (how : Repetition) (k : Follow α) (pos : Nat) (taken : Taken) : Option α :=
  let room := text.size - pos
  let n := countAccepted t text (min (most.getD room) room) pos 0
  if n < least then none
  else
    match how with
    | .greedy => tryDown (k · taken) (pos + least) (n - least)
    | .lazy => tryUp (k · taken) (n - least) (pos + least)
    | .possessive => k (pos + n) taken

/-- Two stretches of the text are the same under a rule. -/
def sameText (letters : LetterRule) (text : Array Char) (a b : Nat) : Nat → Bool
  | 0 => true
  | n + 1 =>
    match text[a]?, text[b]? with
    | some c, some d =>
      letters.fold c.toNat == letters.fold d.toNat && sameText letters text (a + 1) (b + 1) n
    | _, _ => false

/-- A step of a repetition: it goes on with what follows. -/
abbrev Turn (α : Type) := Follow α → Follow α

/-- What is known of a repetition under way: the turns taken, and the position
  from which it last went on without need. -/
structure Repeated where
  count : Nat
  last : Option Nat

/-- One more turn may be taken from a position. -/
def Repeated.mayGoOn (p : Repeated) (most : Option Nat) (pos : Nat) : Bool :=
  most.all (p.count < ·) && p.last != some pos

/-- The turns that are still needed, then what follows them. -/
def takeNeeded (turn : Turn α) (least : Nat) (k : Nat → Follow α) : Nat → Nat → Follow α
  | 0, _, _, _ => none
  | fuel + 1, count, pos, taken =>
    if least ≤ count then k count pos taken
    else
      turn (fun pos' taken' =>
        if pos' = pos then k least pos' taken'
        else takeNeeded turn least k fuel (count + 1) pos' taken') pos taken

/-- As many turns as possible, then what follows them. -/
def takeMany (turn : Turn α) (most : Option Nat) (k : Follow α) : Nat → Repeated → Follow α
  | 0, _, pos, taken => k pos taken
  | fuel + 1, p, pos, taken =>
    if p.mayGoOn most pos then
      match turn (takeMany turn most k fuel ⟨p.count + 1, some pos⟩) pos taken with
      | some a => some a
      | none => k pos taken
    else k pos taken

/-- As few turns as possible, then what follows them. -/
def takeFew (turn : Turn α) (most : Option Nat) (k : Follow α) : Nat → Repeated → Follow α
  | 0, _, pos, taken => k pos taken
  | fuel + 1, p, pos, taken =>
    match k pos taken with
    | some a => some a
    | none =>
      if p.mayGoOn most pos then
        turn (takeFew turn most k fuel ⟨p.count + 1, some pos⟩) pos taken
      else none

/-- As many turns as possible, each taken once and for all: where they end. -/
def takeAll (turn : Turn (Nat × Taken)) (most : Option Nat) :
    Nat → Repeated → Nat → Taken → Nat × Taken
  | 0, _, pos, taken => (pos, taken)
  | fuel + 1, p, pos, taken =>
    if p.mayGoOn most pos then
      match turn (fun pos' taken' => some (pos', taken')) pos taken with
      | some (pos', taken') => takeAll turn most fuel ⟨p.count + 1, some pos⟩ pos' taken'
      | none => (pos, taken)
    else (pos, taken)

namespace Pattern

/-- The first way in which a pattern fits from a position and what follows gives
  an answer. -/
def run (text : Array Char) : {α : Type} → Pattern → Follow α → Follow α
  | _, .empty, k, pos, taken => k pos taken
  | _, .char t, k, pos, taken => if t.acceptsAt text pos then k (pos + 1) taken else none
  | _, .place a, k, pos, taken => if a.holdsAt text pos then k pos taken else none
  | _, .seq p q, k, pos, taken => run text p (run text q k) pos taken
  | _, .alt p q, k, pos, taken =>
    match run text p k pos taken with
    | some a => some a
    | none => run text q k pos taken
  | _, .group n p, k, pos, taken =>
    run text p (fun pos' taken' => k pos' ((n, pos, pos') :: taken')) pos taken
  | _, .same letters n, k, pos, taken =>
    match taken.span? n with
    | none => none
    | some (a, b) =>
      if sameText letters text a pos (b - a) then k (pos + (b - a)) taken else none
  | _, .repeated least most how (.char t), k, pos, taken =>
    repeatChar t text least most how k pos taken
  | _, .repeated least most how p, k, pos, taken =>
    let fuel := text.size + 2
    match how with
    | .greedy =>
      takeNeeded (run text p) least
        (fun count => takeMany (run text p) most k fuel ⟨count, none⟩) fuel 0 pos taken
    | .lazy =>
      takeNeeded (run text p) least
        (fun count => takeFew (run text p) most k fuel ⟨count, none⟩) fuel 0 pos taken
    | .possessive =>
      let needed := takeNeeded (run text p) least
        (fun count pos' taken' => some (count, pos', taken')) fuel 0 pos taken
      match needed with
      | none => none
      | some (count, pos', taken') =>
        let (pos'', taken'') := takeAll (run text p) most fuel ⟨count, none⟩ pos' taken'
        k pos'' taken''
  | _, .atomic p, k, pos, taken =>
    match run text p (fun pos' taken' => some (pos', taken')) pos taken with
    | some (pos', taken') => k pos' taken'
    | none => none
  | _, .look behind negated p, k, pos, taken =>
    let found :=
      if behind.all (· ≤ pos) then
        run text p (fun _ taken' => some taken') (pos - behind.getD 0) taken
      else none
    match found, negated with
    | some taken', false => k pos taken'
    | none, true => k pos taken
    | _, _ => none

/-- Where a pattern that starts at a position ends; `notEmpty` asks that it takes
  a character. -/
def endFrom? (p : Pattern) (text : Array Char) (notEmpty : Bool) (pos : Nat) : Option Nat :=
  run text p (fun pos' _ => if notEmpty && pos' == pos then none else some pos') pos []

/-- The first occurrence of a pattern from a position on, as its start and its
  end; `notEmpty` asks that one that starts right there takes a character. -/
def findFrom? (p : Pattern) (text : Array Char) : Nat → Bool → Nat → Option (Nat × Nat)
  | 0, _, _ => none
  | fuel + 1, notEmpty, pos =>
    if text.size < pos then none
    else
      match p.endFrom? text notEmpty pos with
      | some stop => some (pos, stop)
      | none => findFrom? p text fuel false (pos + 1)

/-- A pattern fits somewhere in a text. -/
def occursIn (p : Pattern) (text : String) : Bool :=
  let cs := text.toList.toArray
  (p.findFrom? cs (cs.size + 1) false 0).isSome

/-- The starts of the occurrences of a pattern from a position on.  An occurrence
  that takes nothing is not found twice at one place. -/
def startsFrom (p : Pattern) (text : Array Char) : Nat → Bool → Nat → List Nat
  | 0, _, _ => []
  | fuel + 1, notEmpty, pos =>
    match p.findFrom? text (text.size + 1) notEmpty pos with
    | none => []
    | some (start, stop) => start :: startsFrom p text fuel (start == stop) stop

/-- Where the successive occurrences of a pattern start. -/
def starts (p : Pattern) (text : String) : List Nat :=
  let cs := text.toList.toArray
  p.startsFrom cs (2 * cs.size + 2) false 0

end Pattern

end DepGraph
