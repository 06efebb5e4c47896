/-
  DepGraph — patterns over names.

  A pattern is a regular expression.  It may look around a place, refer back to
  what a group took, and repeat in three ways.

  * `Pattern`: the patterns.
  * `Pattern.Flags`: what changes how the parts of a pattern are read.
  * `Pattern.span`: how few and how many characters a pattern takes.
-/
import DepGraph.Pattern.CharTest

namespace DepGraph

/-- How a repetition is taken. -/
inductive Repetition
  /-- As often as possible, less often if the rest needs it. -/
  | greedy
  /-- As seldom as possible, more often if the rest needs it. -/
  | lazy
  /-- As often as possible, whatever the rest needs. -/
  | possessive
  deriving DecidableEq, Repr

/-- A place in the text. -/
inductive Anchor
  | textStart
  | textEnd
  | lineStart
  | lineEnd
  /-- The end of the text, or before a line feed that ends it. -/
  | closingLineEnd
  /-- The start or the end of a word; `ascii` restricts what a word is. -/
  | wordEdge (ascii : Bool)
  /-- A place that is no word edge. -/
  | noWordEdge (ascii : Bool)
  deriving DecidableEq, Repr

/-- A pattern. -/
inductive Pattern
  | empty
  | char (t : CharTest)
  | place (a : Anchor)
  | seq (p q : Pattern)
  /-- The first pattern, or else the second. -/
  | alt (p q : Pattern)
  /-- A group whose text later parts may refer to. -/
  | group (n : Nat) (p : Pattern)
  /-- The text that a group took. -/
  | same (letters : LetterRule) (n : Nat)
  /-- At least `least` times and, if `most` is given, at most so often. -/
  | repeated (least : Nat) (most : Option Nat) (how : Repetition) (p : Pattern)
  /-- The first way in which the pattern fits, and no other. -/
  | atomic (p : Pattern)
  /-- The pattern fits here, or ends here when `behind` tells its length; or it
    does not. -/
  | look (behind : Option Nat) (negated : Bool) (p : Pattern)
  deriving DecidableEq, Repr

namespace Pattern

/-- What changes how the parts of a pattern are read. -/
structure Flags where
  ignoreCase : Bool := false
  multiline : Bool := false
  dotAll : Bool := false
  verbose : Bool := false
  ascii : Bool := false
  unicode : Bool := false
  deriving DecidableEq, Repr

/-- How letters are compared under some flags. -/
def Flags.letters (f : Flags) : LetterRule :=
  if !f.ignoreCase then .exact else if f.ascii then .asciiCase else .anyCase

/-- The patterns one after the other. -/
def ofList : List Pattern → Pattern
  | [] => .empty
  | [p] => p
  | p :: rest => .seq p (ofList rest)

/-- One of several patterns, the first that fits. -/
def ofAlternatives : List Pattern → Pattern
  | [] => .empty
  | [p] => p
  | p :: rest => .alt p (ofAlternatives rest)

/-- The bound that counts of repetitions stay below. -/
def countBound : Nat := 4294967295

/-- How few and how many characters a pattern takes. -/
structure Span where
  least : Nat
  most : Nat
  deriving DecidableEq, Repr

/-- A span with its ends kept within the bound of counts. -/
def Span.clamp (s : Span) : Span := ⟨min s.least (countBound - 1), min s.most countBound⟩

/-- How few and how many characters a pattern takes, given the spans of the
  groups that it refers to. -/
def span (groups : Nat → Span) : Pattern → Span
  | .empty | .place _ | .look .. => ⟨0, 0⟩
  | .char _ => ⟨1, 1⟩
  | .seq p q =>
    let (a, b) := (p.span groups, q.span groups)
    Span.clamp ⟨a.least + b.least, a.most + b.most⟩
  | .alt p q =>
    let (a, b) := (p.span groups, q.span groups)
    ⟨min a.least b.least, max a.most b.most⟩
  | .group _ p | .atomic p => p.span groups
  | .same _ n => groups n
  | .repeated least most _ p =>
    let a := p.span groups
    Span.clamp ⟨a.least * least, a.most * most.getD countBound⟩

end Pattern

end DepGraph
