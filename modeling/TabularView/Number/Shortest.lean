import TabularView.Number.Decimal

set_option autoImplicit false

/-! # The shortest decimal that reads back

A binary64 value is written with as few digits as still read back as the same value. For each digit
count from one to seventeen the two neighbours of the value on that decimal grid are tried; the
first grid with a neighbour inside the rounding interval wins, and of two neighbours the nearer one,
a tie going up.

All comparisons are between natural numbers: a value, its interval and a grid are scaled to one
common denominator first. -/

namespace TabularView.Binary64

/-- A positive value with the ends of the interval of fractions that round to it, all over one
denominator. The ends belong to the interval exactly when `closed`. -/
structure Rounding where
  value : Nat
  lower : Nat
  upper : Nat
  den : Nat
  closed : Bool

/-- The rounding interval of the finite value `mantissa * 2 ^ exponent`. Below a power of two the
next value is only half as far away. -/
def rounding (mantissa : Nat) (exponent : Int) : Rounding :=
  let atPower := mantissa = Nat.pow 2 (mantissaBits - 1) ∧ minExponent < exponent
  let (num, den) := ratio 1 exponent
  { value := 4 * mantissa * num
    lower := (if atPower then 4 * mantissa - 1 else 4 * mantissa - 2) * num
    upper := (4 * mantissa + 2) * num
    den := 4 * den
    closed := mantissa % 2 = 0 }

namespace Rounding

/-- The power `p` of ten with `10 ^ p ≤ value < 10 ^ (p + 1)`. -/
def decimalOrder (r : Rounding) : Int :=
  if r.den ≤ r.value then (decimalLength (r.value / r.den) : Int) - 1
  else
    let k := decimalLength r.den - decimalLength r.value
    if r.den ≤ r.value * Nat.pow 10 k then -(k : Int) else -(k : Int) - 1

/-- The same interval measured in units of `10 ^ power`. -/
def inUnitsOf (r : Rounding) (power : Int) : Rounding :=
  if 0 ≤ power then { r with den := r.den * Nat.pow 10 power.toNat }
  else
    let k := Nat.pow 10 (-power).toNat
    { r with value := r.value * k, lower := r.lower * k, upper := r.upper * k }

/-- `true` when the whole number `n` lies in the interval. -/
def contains (r : Rounding) (n : Nat) : Bool :=
  let x := n * r.den
  if r.closed then r.lower ≤ x && x ≤ r.upper else r.lower < x && x < r.upper

/-- The whole number in the interval nearest to its value, among the value's two neighbours. -/
def nearestWhole? (r : Rounding) : Option Nat :=
  let below := r.value / r.den
  match r.contains below, r.contains (below + 1) with
  | false, false => none
  | true, false => some below
  | false, true => some (below + 1)
  | true, true => if 2 * (r.value % r.den) < r.den then some below else some (below + 1)

/-- The first grid, with `count` digits or up to `fuel` more, that has a point in the interval. -/
def shortestFrom (r : Rounding) (order : Int) : Nat → Nat → Option (Nat × Int)
  | 0, _ => none
  | fuel + 1, count =>
    let power := order + 1 - count
    match (r.inUnitsOf power).nearestWhole? with
    | some n => some (n, power)
    | none => shortestFrom r order fuel (count + 1)

end Rounding

/-- A number without its trailing decimal zeros, and how many there were. -/
def stripZeros (fuel n : Nat) : Nat × Nat :=
  match fuel with
  | 0 => (n, 0)
  | fuel + 1 =>
    if n ≠ 0 ∧ n % 10 = 0 then
      let (m, k) := stripZeros fuel (n / 10)
      (m, k + 1)
    else (n, 0)

/-- The shortest decimal for a positive value: digits without trailing zeros, and a power of ten. -/
def shortest (mantissa : Nat) (exponent : Int) : Nat × Int :=
  let r := rounding mantissa exponent
  match r.shortestFrom r.decimalOrder 17 1 with
  | some (n, power) =>
    let (digits, zeros) := stripZeros 17 n
    (digits, power + zeros)
  | none => (0, 0)

/-! ## Written form -/

/-- How a number is written: positional notation serves decimal orders from `firstPositional` to
below `firstScientific`, scientific notation all others. -/
structure Layout where
  firstPositional : Int
  firstScientific : Int

/-- Numbers from `0.0001` to below `10 ^ 16` are written positionally. -/
def Layout.plain : Layout where
  firstPositional := -4
  firstScientific := 16

/-- Digits with the point after the first `whole` of them and at least one digit behind it. -/
def positional (digits : List Char) (whole : Int) : List Char :=
  if whole ≤ 0 then
    '0' :: '.' :: (List.replicate (-whole).toNat '0' ++ digits)
  else if digits.length ≤ whole.toNat then
    digits ++ List.replicate (whole.toNat - digits.length) '0' ++ ['.', '0']
  else
    digits.take whole.toNat ++ '.' :: digits.drop whole.toNat

/-- One digit, a point if more digits follow, and the decimal order after `e`. -/
def scientific (digits : List Char) (order : Int) : List Char :=
  digits.take 1 ++ (if digits.length ≤ 1 then [] else '.' :: digits.drop 1) ++
    'e' :: (toString order).toList

/-- The text of a finite positive value. -/
def magnitudeText (style : Layout) (mantissa : Nat) (exponent : Int) : List Char :=
  let (n, power) := shortest mantissa exponent
  let digits := (toString n).toList
  let order := power + digits.length - 1
  if style.firstPositional ≤ order ∧ order < style.firstScientific then
    positional digits (order + 1)
  else scientific digits order

/-- The text of a value; the sign of a zero is kept. -/
def text : Binary64 → String
  | .nan => "NaN"
  | .infinite negative => if negative then "-inf" else "inf"
  | .finite negative m e _ =>
    let magnitude := if m = 0 then "0.0".toList else magnitudeText .plain m e
    String.ofList (if negative then '-' :: magnitude else magnitude)

end TabularView.Binary64
