import TabularView.Text.Case
import TabularView.Text.Digit
import TabularView.Number.Binary64

set_option autoImplicit false

/-! # Numbers in decimal notation

A number is written as an optional sign, digits with an optional point, and an optional power of
ten. `Numeral.scan` cuts a text into these parts for any notion of digit: the lexical test for
number cells scans with all Unicode digits, reading a value with ASCII digits alone.

`Binary64.ofText?` reads a value; besides literals it knows `inf`, `infinity` and `nan` in any
case. -/

namespace TabularView

/-! ## The parts of a literal -/

/-- The parts of a number literal, still as characters. -/
structure Numeral where
  negative : Bool
  whole : List Char
  fraction : List Char
  exponentNegative : Bool
  exponent : List Char

namespace Numeral

/-- A leading sign and what follows it; no sign counts as plus. -/
def splitSign : List Char → Bool × List Char
  | '+' :: rest => (false, rest)
  | '-' :: rest => (true, rest)
  | s => (false, s)

/-- The exponent of a literal: nothing, or `e` and an optionally signed run of digits to the end. -/
def scanExponent (isDigit : Char → Bool) : List Char → Option (Bool × List Char)
  | [] => some (false, [])
  | c :: rest =>
    if c = 'e' ∨ c = 'E' then
      let (negative, digits) := splitSign rest
      if digits ≠ [] ∧ digits.all isDigit then some (negative, digits) else none
    else none

/-- The fraction of a literal: a point and the digits after it, if there is a point. -/
def scanFraction (isDigit : Char → Bool) : List Char → List Char × List Char
  | '.' :: rest => (rest.takeWhile isDigit, rest.dropWhile isDigit)
  | s => ([], s)

/-- The parts of a text that is a number literal over the given digits, and nothing else. -/
def scan (isDigit : Char → Bool) (s : List Char) : Option Numeral :=
  let (negative, body) := splitSign s
  let whole := body.takeWhile isDigit
  let (fraction, rest) := scanFraction isDigit (body.dropWhile isDigit)
  if whole = [] ∧ fraction = [] then none
  else
    match scanExponent isDigit rest with
    | some (exponentNegative, exponent) =>
      some { negative, whole, fraction, exponentNegative, exponent }
    | none => none

end Numeral

/-! ## Values -/

/-- A decimal number `digits * 10 ^ exponent` with a sign. -/
structure Decimal where
  negative : Bool
  digits : Nat
  exponent : Int
deriving DecidableEq, Repr

/-- The number of decimal digits of a positive number; zero has none. -/
def decimalLength (n : Nat) : Nat :=
  if n = 0 then 0 else decimalLength (n / 10) + 1
termination_by n
decreasing_by omega

namespace Decimal

/-- The decimal number that a literal over ASCII digits stands for. -/
def ofNumeral? (l : Numeral) : Option Decimal :=
  match Text.readDigits? 0 (l.whole ++ l.fraction), Text.readDigits? 0 l.exponent with
  | some digits, some e =>
    let power : Int := if l.exponentNegative then -(e : Int) else e
    some { negative := l.negative, digits, exponent := power - l.fraction.length }
  | _, _ => none

/-- The binary64 value nearest to a decimal number. Beyond `10 ^ 310` that is infinity, below
`10 ^ -324` zero, whatever the digits, so no power larger than that is ever computed. -/
def toBinary64 (d : Decimal) : Binary64 :=
  let order := d.exponent + decimalLength d.digits
  if d.digits = 0 ∨ order < -324 then .zero d.negative
  else if 310 < order then .infinite d.negative
  else if 0 ≤ d.exponent then .ofRatio d.negative (d.digits * Nat.pow 10 d.exponent.toNat) 1
  else .ofRatio d.negative d.digits (Nat.pow 10 (-d.exponent).toNat)

end Decimal

/-! ## Reading -/

namespace Binary64

/-- The value of a word for an infinity or a NaN, without its sign. -/
def ofWord? (word : List Char) : Option Binary64 :=
  let lower := word.map Char.toLower
  if lower = "inf".toList ∨ lower = "infinity".toList then some (.infinite false)
  else if lower = "nan".toList then some .nan
  else none

/-- The value that a text stands for: a literal over ASCII digits, or a word with an optional
sign. -/
def ofText? (s : List Char) : Option Binary64 :=
  match Numeral.scan Text.isAsciiDigit s with
  | some l => (Decimal.ofNumeral? l).map Decimal.toBinary64
  | none =>
    let (negative, word) := Numeral.splitSign s
    (ofWord? word).map fun x => if negative then x.neg else x

end Binary64

end TabularView
