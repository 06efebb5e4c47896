/-
  DepGraph — binary floating-point numbers of double precision.

  A finite value is `±m · 2^q` with `m < 2^53` and `q ≥ -1074`.

  * `Binary.ofDecimal`: the value nearest to a decimal, ties to the even `m`.
  * `Binary.shortestDigits`: the fewest digits that read back as the value,
    and of those the nearest to it.
  * `Binary.text`: the value as text, positional from `10^-4` to below `10^16`
    and with an exponent elsewhere.
  * `roundDiv_bounds`: the quotient that rounding yields is at most half a unit
    away.
-/

namespace DepGraph.Decimal

/-- A double-precision value. -/
inductive Binary
  /-- `±mantissa · 2^exponent`. -/
  | finite (negative : Bool) (mantissa : Nat) (exponent : Int)
  | infinite (negative : Bool)
  | notANumber
  deriving DecidableEq, Repr

namespace Binary

/-- The least exponent of a finite value. -/
def minExponent : Int := -1074

/-- The greatest exponent of a finite value. -/
def maxExponent : Int := 971

/-- One more than the greatest mantissa. -/
def mantissaBound : Nat := Nat.pow 2 53

/-- The quotient nearest to `num / den`; a tie goes to the even one. -/
def roundDiv (num den : Nat) : Nat :=
  let q := num / den
  let r := num % den
  if 2 * r < den then q
  else if den < 2 * r then q + 1
  else if q % 2 == 0 then q else q + 1

/-- Rounding goes at most half a unit away. -/
theorem roundDiv_bounds (num : Nat) {den : Nat} (h : 0 < den) :
    2 * num ≤ (2 * roundDiv num den + 1) * den ∧ 2 * roundDiv num den * den ≤ 2 * num + den := by
  have hdiv : den * (num / den) + num % den = num := Nat.div_add_mod num den
  have hlt : num % den < den := Nat.mod_lt num h
  have hmul : ∀ q : Nat, (2 * q + 1) * den = 2 * (den * q) + den := fun q => by
    rw [Nat.add_mul, Nat.one_mul, Nat.mul_assoc, Nat.mul_comm q den]
  have hmul' : ∀ q : Nat, 2 * q * den = 2 * (den * q) := fun q => by
    rw [Nat.mul_assoc, Nat.mul_comm q den]
  have hs : den * (num / den + 1) = den * (num / den) + den := Nat.mul_succ _ _
  unfold roundDiv
  simp only []
  split
  · rw [hmul, hmul']; omega
  · split
    · rw [hmul, hmul', hs]; omega
    · split
      · rw [hmul, hmul']; omega
      · rw [hmul, hmul', hs]; omega

/-- `num / den · 2^-q`, as a quotient of natural numbers. -/
def scaleDown (num den : Nat) (q : Int) : Nat × Nat :=
  if 0 ≤ q then (num, den * Nat.pow 2 q.toNat) else (num * Nat.pow 2 (-q).toNat, den)

/-- The value with a mantissa of at most `2^53`, or infinity. -/
def pack (negative : Bool) (mantissa : Nat) (exponent : Int) : Binary :=
  let (m, q) := if mantissa == mantissaBound then (mantissa / 2, exponent + 1)
    else (mantissa, exponent)
  if maxExponent < q then .infinite negative else .finite negative m q

/-- The value nearest to `±num / den`. -/
def ofRatio (negative : Bool) (num den : Nat) : Binary :=
  if num == 0 then .finite negative 0 minExponent
  else
    let guess : Int := (num.log2 : Int) - (den.log2 : Int) - 53
    let (n, d) := scaleDown num den guess
    -- `n / d` lies between `2^52` and `2^54`.
    let q := if n < d * mantissaBound then guess else guess + 1
    let q := if q < minExponent then minExponent else q
    let (n, d) := scaleDown num den q
    pack negative (roundDiv n d) q

/-- The value nearest to `±digits · 10^exponent`.  Decimals far outside the
  range of finite values are settled by their order of magnitude. -/
def ofDecimal (negative : Bool) (digits : Nat) (exponent : Int) : Binary :=
  if digits == 0 then .finite negative 0 minExponent
  else
    let size : Int := (digits.log2 : Int) * 30103 / 100000 + exponent
    if 310 < size then .infinite negative
    else if size < -330 then .finite negative 0 minExponent
    else if 0 ≤ exponent then ofRatio negative (digits * Nat.pow 10 exponent.toNat) 1
    else ofRatio negative digits (Nat.pow 10 (-exponent).toNat)

/-- A value is zero, of either sign. -/
def isZero : Binary → Bool
  | .finite _ m _ => m == 0
  | _ => false

/-- The integer that a value is, when it is one. -/
def toInt? : Binary → Option Int
  | .finite negative m q =>
    let n? : Option Nat :=
      if 0 ≤ q then some (m * Nat.pow 2 q.toNat)
      else if m % Nat.pow 2 (-q).toNat == 0 then some (m / Nat.pow 2 (-q).toNat) else none
    n?.map fun n => if negative then -(n : Int) else (n : Int)
  | _ => none

/-! ## The fewest digits -/

/-- A decimal `digits · 10^exponent`. -/
structure Scaled where
  digits : Nat
  exponent : Int
  deriving DecidableEq, Repr

/-- `num / den` as a quotient over `10^k`. -/
def overPower (num den : Nat) (k : Int) : Nat × Nat :=
  if 0 ≤ k then (num, den * Nat.pow 10 k.toNat) else (num * Nat.pow 10 (-k).toNat, den)

/-- Four times the value, four times the ends of the interval of reals that
  round to it, and the common denominator. -/
def interval (m : Nat) (q : Int) : Nat × Nat × Nat × Nat :=
  let below := if m == Nat.pow 2 52 && minExponent < q then 1 else 2
  let scale : Nat := if 0 ≤ q then Nat.pow 2 q.toNat else 1
  let den : Nat := if 0 ≤ q then 4 else 4 * Nat.pow 2 (-q).toNat
  (4 * m * scale, (4 * m - below) * scale, (4 * m + 2) * scale, den)

/-- The decimal on the grid `10^k` that lies in the interval of a value, the
  nearer one of the value's two neighbours; a tie goes to the even digits. -/
def onGrid? (m : Nat) (q k : Int) : Option Nat :=
  let (value, low, high, den) := interval m q
  let even := m % 2 == 0
  let (vn, vd) := overPower value den k
  let (ln, ld) := overPower low den k
  let (hn, hd) := overPower high den k
  let inside := fun d : Nat =>
    if even then decide (ln ≤ d * ld) && decide (d * hd ≤ hn)
    else decide (ln < d * ld) && decide (d * hd < hn)
  let floor := vn / vd
  let r := vn % vd
  match inside floor, inside (floor + 1) with
  | true, true =>
    if 2 * r < vd then some floor
    else if vd < 2 * r then some (floor + 1)
    else if floor % 2 == 0 then some floor else some (floor + 1)
  | true, false => some floor
  | false, true => some (floor + 1)
  | false, false => none

/-- Drop zeros at the end of the digits. -/
def dropZeros : Nat → Nat → Int → Scaled
  | 0, d, k => ⟨d, k⟩
  | fuel + 1, d, k =>
    if d != 0 && d % 10 == 0 then dropZeros fuel (d / 10) (k + 1) else ⟨d, k⟩

/-- The first grid, from coarse to fine, that meets the interval of a value. -/
def firstGrid (m : Nat) (q : Int) : Nat → Int → Scaled
  | 0, k => ⟨(onGrid? m q k).getD 0, k⟩
  | fuel + 1, k =>
    match onGrid? m q k with
    | some d => if d == 0 then firstGrid m q fuel (k - 1) else dropZeros 20 d k
    | none => firstGrid m q fuel (k - 1)

/-- The shortest decimal that reads back as `m · 2^q`, the nearest of those. -/
def shortest (m : Nat) (q : Int) : Scaled :=
  -- `10^top` exceeds the value.
  let top : Int := ((m.log2 : Int) + 1 + q) * 30103 / 100000 + 2
  firstGrid m q 24 top

/-! ## Text -/

/-- The decimal text of a number of at least `width` digits. -/
def padded (width n : Nat) : List Char :=
  let ds := Nat.toDigits 10 n
  List.replicate (width - ds.length) '0' ++ ds

/-- A decimal as text: positional while the point lies at most 16 places after
  the first digit and at most 3 zeros before it, otherwise one digit, the point
  and an exponent with its sign and at least two digits. -/
def decimalText (d : Scaled) : List Char :=
  let ds := Nat.toDigits 10 d.digits
  -- The point stands after the first `point` digits.
  let point : Int := ds.length + d.exponent
  if -4 < point && point ≤ 16 then
    if point ≤ 0 then "0.".toList ++ List.replicate (-point).toNat '0' ++ ds
    else
      let n := point.toNat
      if ds.length ≤ n then ds ++ List.replicate (n - ds.length) '0' ++ ".0".toList
      else ds.take n ++ ['.'] ++ ds.drop n
  else
    let e := point - 1
    let sign := if e < 0 then '-' else '+'
    let fraction := if ds.length ≤ 1 then [] else '.' :: ds.drop 1
    ds.take 1 ++ fraction ++ ['e', sign] ++ padded 2 e.natAbs

/-- A value as text. -/
def text : Binary → String
  | .finite negative m q =>
    let digits := if m == 0 then "0.0".toList else decimalText (shortest m q)
    String.ofList (if negative then '-' :: digits else digits)
  | .infinite negative => if negative then "-inf" else "inf"
  | .notANumber => "nan"

end Binary

end DepGraph.Decimal
