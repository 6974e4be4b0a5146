set_option autoImplicit false

/-! # Binary64 numbers as exact fractions

Numbers in filters and cells are IEEE 754 binary64 values. They are kept as a sign, a whole
mantissa and an exponent of two, so that reading, comparing and writing them is arithmetic on
natural numbers. Mantissa and exponent of a finite value are canonical, so no value has two forms.

`Binary64.ofRatio` rounds a fraction to the nearest value, a tie going to the even mantissa; every
reading and every product goes through it. -/

namespace TabularView

namespace Binary64

/-! ## The format -/

/-- Mantissas have at most this many bits. -/
def mantissaBits : Nat := 53

/-- The exponent of the smallest positive value. -/
def minExponent : Int := -1074

/-- The largest exponent of a finite value. -/
def maxExponent : Int := 971

/-- The mantissa and the exponent of a finite value: as many bits as there is room for, unless the
value is too small for that. -/
structure IsCanonical (mantissa : Nat) (exponent : Int) : Prop where
  fits : mantissa < Nat.pow 2 mantissaBits
  minExponent_le : minExponent ≤ exponent
  le_maxExponent : exponent ≤ maxExponent
  full : Nat.pow 2 (mantissaBits - 1) ≤ mantissa ∨ exponent = minExponent

instance (m : Nat) (e : Int) : Decidable (IsCanonical m e) :=
  decidable_of_decidable_of_iff (p := m < Nat.pow 2 mantissaBits ∧ minExponent ≤ e ∧
      e ≤ maxExponent ∧ (Nat.pow 2 (mantissaBits - 1) ≤ m ∨ e = minExponent))
    ⟨fun ⟨fits, least, greatest, full⟩ => ⟨fits, least, greatest, full⟩,
      fun ⟨fits, least, greatest, full⟩ => ⟨fits, least, greatest, full⟩⟩

end Binary64

/-- A binary64 value. A finite one stands for `mantissa * 2 ^ exponent` with the given sign. -/
inductive Binary64
  | finite (negative : Bool) (mantissa : Nat) (exponent : Int)
      (canonical : Binary64.IsCanonical mantissa exponent)
  | infinite (negative : Bool)
  | nan
deriving DecidableEq, Repr

namespace Binary64

/-! ## Values -/

/-- Zero with a sign. -/
def zero (negative : Bool) : Binary64 :=
  .finite negative 0 minExponent (by decide)

/-- Neither infinite nor a NaN. -/
def isFinite : Binary64 → Bool
  | .finite _ _ _ _ => true
  | _ => false

/-- The value with the opposite sign. -/
def neg : Binary64 → Binary64
  | .finite s m e h => .finite (!s) m e h
  | .infinite s => .infinite (!s)
  | .nan => .nan

/-- The finite value with a mantissa and an exponent, or an infinity if there is none. -/
def ofParts (negative : Bool) (mantissa : Nat) (exponent : Int) : Binary64 :=
  if h : IsCanonical mantissa exponent then .finite negative mantissa exponent h
  else .infinite negative

/-! ## Rounding -/

/-- The whole number nearest to `num / den`; a tie goes to the even neighbour. -/
def roundHalfEven (num den : Nat) : Nat :=
  let q := num / den
  let r := num % den
  if 2 * r < den then q
  else if den < 2 * r then q + 1
  else if q % 2 = 0 then q else q + 1

theorem roundHalfEven_le (num den : Nat) : roundHalfEven num den ≤ num / den + 1 := by
  unfold roundHalfEven
  grind

/-- `num / den` scaled by `2 ^ (-e)`, as numerator and denominator. -/
def scaleDown (num den : Nat) (e : Int) : Nat × Nat :=
  if 0 ≤ e then (num, den * Nat.pow 2 e.toNat) else (num * Nat.pow 2 (-e).toNat, den)

/-- The exponent `k` with `2 ^ k ≤ num / den < 2 ^ (k + 1)`, for a positive fraction. -/
def binaryOrder (num den : Nat) : Int :=
  let k : Int := (Nat.log2 num : Int) - (Nat.log2 den : Int)
  let (n, d) := scaleDown num den k
  if d ≤ n then k else k - 1

/-- The mantissa and the exponent that the positive fraction `num / den` is rounded to, however
large the exponent is. -/
def roundedParts (num den : Nat) : Nat × Int :=
  let e := max minExponent (binaryOrder num den - (mantissaBits - 1))
  let (n, d) := scaleDown num den e
  let m := roundHalfEven n d
  if m = Nat.pow 2 mantissaBits then (Nat.pow 2 (mantissaBits - 1), e + 1) else (m, e)

/-- The value nearest to the positive fraction `num / den`. -/
def ofMagnitude (negative : Bool) (num den : Nat) : Binary64 :=
  let (m, e) := roundedParts num den
  ofParts negative m e

/-- The value nearest to the fraction `num / den`; `den` is positive. -/
def ofRatio (negative : Bool) (num den : Nat) : Binary64 :=
  if num = 0 then zero negative else ofMagnitude negative num den

/-- The value nearest to a natural number. -/
def ofNat (n : Nat) : Binary64 :=
  ofRatio false n 1

/-! ## Products and quotients -/

/-- The magnitude of a finite value as a fraction. -/
def ratio (mantissa : Nat) (exponent : Int) : Nat × Nat :=
  if 0 ≤ exponent then (mantissa * Nat.pow 2 exponent.toNat, 1)
  else (mantissa, Nat.pow 2 (-exponent).toNat)

/-- The product of two finite values, rounded. -/
def mulFinite (s t : Bool) (m n : Nat) (e f : Int) : Binary64 :=
  let (a, b) := ratio m e
  let (c, d) := ratio n f
  ofRatio (s != t) (a * c) (b * d)

/-- The quotient of two finite values, rounded; the divisor is not zero. -/
def divFinite (s t : Bool) (m n : Nat) (e f : Int) : Binary64 :=
  let (a, b) := ratio m e
  let (c, d) := ratio n f
  ofRatio (s != t) (a * d) (b * c)

end Binary64

end TabularView
