import TabularView.Json.Fields
import TabularView.Query.Compile

set_option autoImplicit false

/-! # Axis bindings as JSON

Bindings have the same shape as in settings files. A number may be written as a text, as JSON has no
infinities. -/

namespace TabularView

/-- A number, or a text that stands for one. -/
def Binary64.ofJson? : Json → Option Binary64
  | .number n => some n.toBinary64
  | .string s => ofText? s.toList
  | _ => none

/-- The value of a filter. -/
def FilterValue.ofJson? : Json → Option FilterValue
  | .object [("String", j)] => j.text?.map string
  | .object [("Number", j)] => (Binary64.ofJson? j).map number
  | .object [("Integer", j)] => j.signed?.map integer
  | _ => none

/-- What is compared with what in a filter. -/
def Filter.comparisonOfJson? : Json → Option (Operator × FilterValue)
  | .object fields => do
    let operator ← Json.field? "operator" (Json.choice? Operator.ofName?) fields
    let value ← Json.field? "value" FilterValue.ofJson? fields
    some (operator, value)
  | _ => none

/-- A filter. -/
def Filter.ofJson? : Json → Option Filter
  | .string name => if name = "NoOp" then some noOp else none
  | .object [("NoOp", .null)] => some noOp
  | .object [("Include", j)] =>
    (comparisonOfJson? j).map fun (operator, value) => keep operator value
  | .object [("Exclude", j)] =>
    (comparisonOfJson? j).map fun (operator, value) => discard operator value
  | _ => none

/-- The binding of an axis. -/
def AxisBinding.ofJson? : Json → Option AxisBinding
  | .object fields => do
    let column ← Json.field? "column" Json.text? fields
    let interpolation ← Json.fieldOr? "interpolation" (Json.choice? Interpolation.ofName?) .linear
      fields
    let direction ← Json.fieldOr? "direction" (Json.choice? Direction.ofName?) .ascending fields
    let filter ← Json.fieldOr? "filter" Filter.ofJson? .noOp fields
    some { column, interpolation, direction, filter }
  | _ => none

/-- The bindings of all axes. -/
def AxisBindings.ofJson? : Json → Option AxisBindings
  | .object fields => do
    let x ← Json.field? "x" AxisBinding.ofJson? fields
    let y ← Json.field? "y" AxisBinding.ofJson? fields
    let z ← Json.field? "z" AxisBinding.ofJson? fields
    let aggregate ← Json.option? "aggregate" (Json.choice? Aggregate.ofName?) fields
    some { x, y, z, aggregate }
  | _ => none

end TabularView
