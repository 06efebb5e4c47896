/-
  DepGraph — sets of characters by the boundaries of their ranges.

  A property of characters is stored as the ascending list of the code points
  at which it changes: it starts at the first, stops at the second, and so on.

  * `CodeSet.rank`: how many boundaries lie at or below a code point.
  * `CodeSet.mem`: membership, an odd rank.
  * `CodeSet.runStart`: where the range around a code point begins.
-/

namespace DepGraph.Text

/-- A set of code points as the ascending boundaries of its ranges. -/
structure CodeSet where
  /-- Where the set starts, where it stops, where it starts again, and so on. -/
  bounds : Array Nat

namespace CodeSet

/-- The number of boundaries at or below `c` among those with an index in
  `[lo, hi)`, plus `lo`, when the earlier ones all are and the later ones are not. -/
def rankBetween (s : CodeSet) (c lo hi : Nat) : Nat :=
  if h : lo < hi then
    let mid := (lo + hi) / 2
    if s.bounds.getD mid 0 ≤ c then rankBetween s c (mid + 1) hi else rankBetween s c lo mid
  else lo
  termination_by hi - lo

/-- How many boundaries lie at or below a code point. -/
def rank (s : CodeSet) (c : Nat) : Nat := s.rankBetween c 0 s.bounds.size

/-- A code point belongs to the set. -/
def mem (s : CodeSet) (c : Nat) : Bool := s.rank c % 2 == 1

/-- The first code point of the range around `c`, when there is one. -/
def runStart? (s : CodeSet) (c : Nat) : Option Nat :=
  let r := s.rank c
  if r % 2 == 1 then s.bounds[r - 1]? else none

end CodeSet

end DepGraph.Text
