import TabularView.Number.Decimal

set_option autoImplicit false

/-! # JSON values

Results are exchanged as JSON. A value is kept as it was written: fields in order, repeated ones
included, and whole numbers of 64 bits apart from all others, as a count written `1.0` is not a
count. -/

namespace TabularView

/-- A number as it was written: a whole one of 64 bits, or one with a point, an exponent, a negative
zero or too many digits. -/
inductive JsonNumber
  | whole (value : Int)
  | decimal (value : Decimal)
deriving DecidableEq, Repr

/-- A JSON value. -/
inductive Json
  | null
  | bool (value : Bool)
  | number (value : JsonNumber)
  | string (value : String)
  | array (items : List Json)
  | object (fields : List (String × Json))
deriving Inhabited

namespace JsonNumber

/-- A 64-bit number scaled by powers of ten up to `10 ^ 308`, each step being rounded. -/
def scale (fuel : Nat) (x : Binary64) (exponent : Int) : Binary64 :=
  match fuel, x with
  | fuel + 1, .finite s m e _ =>
    let step : Int := if 308 < exponent then 308 else if exponent < -308 then -308 else exponent
    let power := Decimal.toBinary64 { negative := false, digits := 1, exponent := step.natAbs }
    match power with
    | .finite t n f _ =>
      let y := if 0 ≤ step then Binary64.mulFinite s t m n e f else Binary64.divFinite s t m n e f
      if step = exponent then y else scale fuel y (exponent - step)
    | _ => x
  | _, _ => x

/-- The binary64 value of a number. A whole number is rounded once; of any other the digits are
rounded first and then scaled by the power of ten. -/
def toBinary64 : JsonNumber → Binary64
  | .whole n => if n < 0 then (Binary64.ofNat n.natAbs).neg else .ofNat n.natAbs
  | .decimal d =>
    let x := scale 4 (.ofNat d.digits) d.exponent
    if d.negative then x.neg else x

end JsonNumber

namespace Json

/-- A whole number. -/
def ofNat (n : Nat) : Json :=
  .number (.whole n)

/-- A value, or null in its place. -/
def ofOption {α : Type} (f : α → Json) : Option α → Json
  | some a => f a
  | none => .null

/-- The values that fields of this name have, from first to last. -/
def valuesOf (name : String) (fields : List (String × Json)) : List Json :=
  (fields.filter (·.1 == name)).map (·.2)

/-- The fields with only the last of each name, as in a dictionary. -/
def lastOfEach : List (String × Json) → List (String × Json)
  | [] => []
  | field :: rest =>
    if rest.any (·.1 == field.1) then lastOfEach rest else field :: lastOfEach rest

mutual

/-- The value with every object's repeated fields reduced to the last of each name. -/
def collapse : Json → Json
  | .array items => .array (collapseItems items)
  | .object fields => .object (lastOfEach (collapseFields fields))
  | j => j

/-- The items, each collapsed. -/
def collapseItems : List Json → List Json
  | [] => []
  | j :: rest => collapse j :: collapseItems rest

/-- The fields, each value collapsed. -/
def collapseFields : List (String × Json) → List (String × Json)
  | [] => []
  | (name, j) :: rest => (name, collapse j) :: collapseFields rest

end

end Json

end TabularView
