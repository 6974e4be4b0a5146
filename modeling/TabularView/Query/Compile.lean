import TabularView.Query.Filter
import TabularView.View.Clause

set_option autoImplicit false

/-! # Compiling axis bindings

A glyph query groups the rows of a view by two axes and aggregates a third. Each axis is bound to a
column of the view and may be scaled logarithmically, sorted either way and filtered. The bounds
query gives the least and greatest value of every axis over the same groups.

`compileAxis` checks one axis; the axes are checked in the order X, Y, Z, and the first that does
not fit decides the failure. -/

namespace TabularView

/-! ## Bindings -/

/-- How the values of an axis are scaled. -/
inductive Interpolation
  | linear
  | logarithmic
deriving DecidableEq, Repr, Inhabited

/-- The name of a scale in settings. -/
def Interpolation.name : Interpolation → String
  | .linear => "Linear"
  | .logarithmic => "Logarithmic"

/-- The scale with a name. -/
def Interpolation.ofName? (name : String) : Option Interpolation :=
  [linear, logarithmic].find? (·.name == name)

/-- Which way an axis is sorted. -/
inductive Direction
  | ascending
  | descending
deriving DecidableEq, Repr, Inhabited

/-- The name of a direction in settings. -/
def Direction.name : Direction → String
  | .ascending => "Ascending"
  | .descending => "Descending"

/-- The direction with a name. -/
def Direction.ofName? (name : String) : Option Direction :=
  [ascending, descending].find? (·.name == name)

/-- A direction as it is written. -/
def Direction.keyword : Direction → String
  | .ascending => "ASC"
  | .descending => "DESC"

/-- How the values of a group become one. -/
inductive Aggregate
  | sum
  | avg
  | min
  | max
  | count
deriving DecidableEq, Repr, Inhabited

namespace Aggregate

/-- The name of an aggregate in settings. -/
def name : Aggregate → String
  | .sum => "sum"
  | .avg => "avg"
  | .min => "min"
  | .max => "max"
  | .count => "count"

/-- The aggregate with a name. -/
def ofName? (name : String) : Option Aggregate :=
  [sum, avg, min, max, count].find? (·.name == name)

/-- An aggregate as it is written. -/
def function : Aggregate → String
  | .sum => "SUM"
  | .avg => "AVG"
  | .min => "MIN"
  | .max => "MAX"
  | .count => "COUNT"

/-- Aggregates that only numbers have. -/
def requiresNumber : Aggregate → Bool
  | .sum | .avg => true
  | _ => false

end Aggregate

/-- One of the three axes. -/
inductive Axis
  | x
  | y
  | z
deriving DecidableEq, Repr

/-- The name of an axis in queries. -/
def Axis.label : Axis → String
  | .x => "x"
  | .y => "y"
  | .z => "z"

/-- What an axis shows. -/
structure AxisBinding where
  column : String
  interpolation : Interpolation := .linear
  direction : Direction := .ascending
  filter : Filter := .noOp
deriving DecidableEq, Repr

/-- What the three axes show, and how the third is aggregated if that is said. -/
structure AxisBindings where
  x : AxisBinding
  y : AxisBinding
  z : AxisBinding
  aggregate : Option Aggregate := none
deriving DecidableEq, Repr

/-! ## One axis -/

/-- The value of an axis: a column, perhaps aggregated, perhaps scaled. -/
structure AxisValue where
  column : String
  aggregate : Option Aggregate
  logarithmic : Bool
deriving DecidableEq, Repr

/-- A value as it is written. -/
def AxisValue.pieces (v : AxisValue) : List Sql.Piece :=
  let inner : List Sql.Piece := match v.aggregate with
    | none => [.name v.column]
    | some a => [.plain (a.function ++ "("), .name v.column, .plain ")"]
  if v.logarithmic then .plain "LOG10(" :: inner ++ [.plain ")"] else inner

/-- An axis that has been checked against the view. -/
structure CompiledAxis where
  axis : Axis
  value : AxisValue
  direction : Direction
  predicate : Option Predicate
deriving DecidableEq, Repr

/-- The type of the column bound to an axis. -/
def AxisBinding.columnType (b : AxisBinding) (axis : Axis) (view : ViewDefinition) :
    Except Failure FieldType :=
  match view.columnType? b.column with
  | some type => .ok type
  | none => .error (.invalidValue b.column (.notInView axis.label view.name))

/-- An aggregate fits a column that it can be computed of. -/
def checkAggregate (column : String) (type : FieldType) : Option Aggregate → Except Failure Unit
  | some a =>
    if a.requiresNumber ∧ type ≠ .number then
      .error (.invalidValue column (.aggregateNeedsNumber a.function column type))
    else .ok ()
  | none => .ok ()

/-- Logarithms need numbers; a count is one whatever is counted. -/
def checkInterpolation (column : String) (type : FieldType) (aggregate : Option Aggregate) :
    Interpolation → Except Failure Unit
  | .linear => .ok ()
  | .logarithmic =>
    if aggregate = some .count ∨ type = .number then .ok ()
    else .error (.invalidValue column (.logarithmNeedsNumber column type))

/-- Checks one axis against the view. Grouping axes have no aggregate. -/
def compileAxis (axis : Axis) (b : AxisBinding) (view : ViewDefinition)
    (aggregate : Option Aggregate) : Except Failure CompiledAxis := do
  let type ← b.columnType axis view
  checkAggregate b.column type aggregate
  checkInterpolation b.column type aggregate b.interpolation
  let predicate ← b.filter.predicate? b.column type
  .ok {
    axis := axis
    value := {
      column := b.column
      aggregate := aggregate
      logarithmic := b.interpolation = .logarithmic }
    direction := b.direction
    predicate := predicate }

/-! ## The queries -/

/-- The checked axes over a view. -/
structure GlyphQuery where
  view : String
  x : CompiledAxis
  y : CompiledAxis
  z : CompiledAxis
deriving DecidableEq, Repr

namespace GlyphQuery

/-- The axes in order. -/
def axes (q : GlyphQuery) : List CompiledAxis :=
  [q.x, q.y, q.z]

/-- The predicates of all axes. -/
def predicates (q : GlyphQuery) : List Predicate :=
  q.axes.filterMap (·.predicate)

/-- What the query shows of each axis, and the size of each group. -/
def selectPieces (q : GlyphQuery) : List Sql.Piece :=
  .plain "SELECT\n  " ::
    Sql.separated ",\n  " (q.axes.map fun a =>
      a.value.pieces ++ [.plain " AS ", .name a.axis.label])
    ++ [.plain ",\n  COUNT(*) AS ", .name "count", .plain "\nFROM ", .name q.view]

/-- The condition on rows; nothing if no axis is filtered. -/
def wherePieces (q : GlyphQuery) : List Sql.Piece :=
  match q.predicates with
  | [] => []
  | predicates => .plain "\nWHERE " :: Sql.separated " AND " (predicates.map (·.pieces))

/-- The columns that make a group. -/
def groupPieces (q : GlyphQuery) : List Sql.Piece :=
  [.plain "\nGROUP BY ", .name q.x.value.column, .plain ", ", .name q.y.value.column]

/-- The query without its order. -/
def groupedPieces (q : GlyphQuery) : List Sql.Piece :=
  q.selectPieces ++ q.wherePieces ++ q.groupPieces

/-- The whole query in pieces. -/
def pieces (q : GlyphQuery) : List Sql.Piece :=
  q.groupedPieces ++ .plain "\nORDER BY " ::
    Sql.separated ", " (q.axes.map fun a =>
      [.name a.axis.label, .plain (" " ++ a.direction.keyword)])

/-- The least and the greatest value of an axis. -/
def boundPieces (axis : Axis) : List Sql.Piece :=
  [.plain "MIN(", .name axis.label, .plain ") AS ", .name ("min_" ++ axis.label),
    .plain ", MAX(", .name axis.label, .plain ") AS ", .name ("max_" ++ axis.label)]

/-- The query for the bounds of all axes in pieces. -/
def boundsPieces (q : GlyphQuery) : List Sql.Piece :=
  .plain "SELECT\n  " :: Sql.separated ",\n  " ([Axis.x, .y, .z].map boundPieces) ++
    .plain "\nFROM (\n" :: q.groupedPieces ++ [.plain "\n) AS ", .name "glyphs"]

/-- The query as a text. -/
def text (q : GlyphQuery) : String :=
  Sql.render q.pieces

/-- The query for the bounds as a text. -/
def boundsText (q : GlyphQuery) : String :=
  Sql.render q.boundsPieces

end GlyphQuery

/-- Compiles bindings against a view. The aggregate of the bindings goes before the default. -/
def compileBindings (defaultAggregate : Aggregate) (b : AxisBindings) (view : ViewDefinition) :
    Except Failure GlyphQuery := do
  let x ← compileAxis .x b.x view none
  let y ← compileAxis .y b.y view none
  let z ← compileAxis .z b.z view (some (b.aggregate.getD defaultAggregate))
  .ok { view := view.name, x, y, z }

end TabularView
