/-
  DepGraph — integers as text.

  * `readInteger?`: an optional sign, then decimal digits of any script, single
    underscores allowed between two digits; at most 4300 digits.
  * `digitLimit`: that bound.
-/
import DepGraph.Text.Digit

namespace DepGraph.Decimal

open DepGraph.Text

/-- The most digits that an integer is read from. -/
def digitLimit : Nat := 4300

/-- The values of digits, single underscores allowed between two of them. -/
def digitGroups? : List Char → Option (List Nat)
  | [] => none
  | [c] => (digitValue? c).map ([·])
  | c :: '_' :: rest => do return (← digitValue? c) :: (← digitGroups? rest)
  | c :: rest => do return (← digitValue? c) :: (← digitGroups? rest)

/-- The number that digits of a base write. -/
def ofDigits (base : Nat) (digits : List Nat) : Nat :=
  digits.foldl (fun n d => n * base + d) 0

/-- Digits without a sign, as a number. -/
def readNatural? (s : List Char) : Option Nat :=
  (digitGroups? s).bind fun ds => if ds.length ≤ digitLimit then some (ofDigits 10 ds) else none

/-- The integer that a text writes. -/
def readInteger? : List Char → Option Int
  | '-' :: rest => (readNatural? rest).map fun n => -(n : Int)
  | '+' :: rest => (readNatural? rest).map fun n => (n : Int)
  | s => (readNatural? s).map fun n => (n : Int)

end DepGraph.Decimal
