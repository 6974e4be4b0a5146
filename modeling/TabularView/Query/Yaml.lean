import TabularView.Query.Compile
import TabularView.Yaml.Value

set_option autoImplicit false

/-! # Axis bindings as YAML

A filter is `NoOp`, or an entry `Include` or `Exclude` with a comparison and a value; a value is an
entry that names its kind. Scales and directions may be missing and are then linear and
ascending. -/

namespace TabularView

/-- The value of a filter. -/
def FilterValue.ofValue? (v : Yaml.Value) : Option FilterValue :=
  match v.variant? with
  | some ("String", content) => content.text?.map string
  | some ("Number", content) => content.number?.map number
  | some ("Integer", content) => content.whole?.map integer
  | _ => none

/-- What is compared with what in a filter. -/
def Filter.comparisonOfValue? (v : Yaml.Value) : Option (Operator × FilterValue) := do
  let entries ← v.record?
  let operator ← Yaml.Value.entry? "operator" (fun v => v.variantName?.bind Operator.ofName?)
    entries
  let value ← Yaml.Value.entry? "value" FilterValue.ofValue? entries
  some (operator, value)

/-- A filter. -/
def Filter.ofValue? (v : Yaml.Value) : Option Filter :=
  match v.variantName?, v.variant? with
  | some name, _ => if name = "NoOp" then some noOp else none
  | none, some ("Include", content) =>
    (comparisonOfValue? content).map fun (operator, value) => keep operator value
  | none, some ("Exclude", content) =>
    (comparisonOfValue? content).map fun (operator, value) => discard operator value
  | none, _ => none

/-- The binding of an axis. -/
def AxisBinding.ofValue? (v : Yaml.Value) : Option AxisBinding := do
  let entries ← v.record?
  let column ← Yaml.Value.entry? "column" Yaml.Value.text? entries
  let interpolation ← Yaml.Value.entryOr? "interpolation"
    (Yaml.Value.choice? Interpolation.ofName?) .linear entries
  let direction ← Yaml.Value.entryOr? "direction" (Yaml.Value.choice? Direction.ofName?) .ascending
    entries
  let filter ← Yaml.Value.entryOr? "filter" Filter.ofValue? .noOp entries
  some { column, interpolation, direction, filter }

/-- The bindings of all axes. -/
def AxisBindings.ofValue? (v : Yaml.Value) : Option AxisBindings := do
  let entries ← v.record?
  let x ← Yaml.Value.entry? "x" AxisBinding.ofValue? entries
  let y ← Yaml.Value.entry? "y" AxisBinding.ofValue? entries
  let z ← Yaml.Value.entry? "z" AxisBinding.ofValue? entries
  let aggregate ← Yaml.Value.entryOr? "aggregate"
    (Yaml.Value.nullable? (Yaml.Value.choice? Aggregate.ofName?)) none entries
  some { x, y, z, aggregate }

/-- The bindings in a text. -/
def AxisBindings.ofYaml? (text : String) : Option AxisBindings :=
  (Yaml.Value.ofText? text).bind ofValue?

end TabularView
