import TabularView.Field.Checker
import TabularView.Sql.Piece

set_option autoImplicit false

/-! # Filters

An axis may keep only the rows whose column compares with a value (`keep`), or only those whose
column does not (`discard`); the second is written with the opposite comparison. The value has to
fit the type of the column: texts and dates are written as texts, numbers as numbers.

`Operator.holds_negate` says that the opposite comparison holds exactly where the comparison itself
does not, over any total order. -/

namespace TabularView

/-! ## Comparisons -/

/-- A comparison. -/
inductive Operator
  | equal
  | notEqual
  | greaterThan
  | greaterThanEqual
  | lessThan
  | lessThanEqual
deriving DecidableEq, Repr

namespace Operator

/-- All comparisons. -/
def all : List Operator :=
  [equal, notEqual, greaterThan, greaterThanEqual, lessThan, lessThanEqual]

/-- The name of a comparison in settings. -/
def name : Operator → String
  | .equal => "Equal"
  | .notEqual => "NotEqual"
  | .greaterThan => "GreaterThan"
  | .greaterThanEqual => "GreaterThanEqual"
  | .lessThan => "LessThan"
  | .lessThanEqual => "LessThanEqual"

/-- The comparison with a name. -/
def ofName? (name : String) : Option Operator :=
  all.find? (·.name == name)

/-- A comparison as it is written. -/
def symbol : Operator → String
  | .equal => "="
  | .notEqual => "<>"
  | .greaterThan => ">"
  | .greaterThanEqual => ">="
  | .lessThan => "<"
  | .lessThanEqual => "<="

/-- The opposite comparison. -/
def negate : Operator → Operator
  | .equal => .notEqual
  | .notEqual => .equal
  | .greaterThan => .lessThanEqual
  | .lessThanEqual => .greaterThan
  | .greaterThanEqual => .lessThan
  | .lessThan => .greaterThanEqual

/-- Two values that are ordered so compare. -/
def holds : Operator → Ordering → Bool
  | .equal, o => o.isEq
  | .notEqual, o => o.isNe
  | .greaterThan, o => o.isGT
  | .greaterThanEqual, o => o.isGE
  | .lessThan, o => o.isLT
  | .lessThanEqual, o => o.isLE

theorem negate_negate (op : Operator) : op.negate.negate = op := by
  cases op <;> rfl

theorem holds_negate (op : Operator) (o : Ordering) : op.negate.holds o = !op.holds o := by
  cases op <;> cases o <;> rfl

theorem ofName?_name (op : Operator) : ofName? op.name = some op := by
  cases op <;> rfl

end Operator

/-! ## Filters -/

/-- The value of a filter. -/
inductive FilterValue
  | string (value : String)
  | number (value : Binary64)
  | integer (value : Int)
deriving DecidableEq, Repr

/-- The name of a value's kind in settings and messages. -/
def FilterValue.kind : FilterValue → String
  | .string _ => "String"
  | .number _ => "Number"
  | .integer _ => "Integer"

/-- A condition on an axis. -/
inductive Filter
  | noOp
  | keep (operator : Operator) (value : FilterValue)
  | discard (operator : Operator) (value : FilterValue)
deriving DecidableEq, Repr, Inhabited

/-- The comparison that rows have to pass, and the value they are compared with. -/
def Filter.comparison? : Filter → Option (Operator × FilterValue)
  | .noOp => none
  | .keep operator value => some (operator, value)
  | .discard operator value => some (operator.negate, value)

/-! ## Literals and predicates -/

/-- The value of a filter as the engine reads it. -/
inductive SqlLiteral
  | text (value : String)
  | number (value : Binary64)
  | integer (value : Int)
  | timestamp (value : Instant)
deriving DecidableEq, Repr

/-- A literal as it is written. -/
def SqlLiteral.pieces : SqlLiteral → List Sql.Piece
  | .text value => [.text value]
  | .number value => [.plain value.text]
  | .integer value => [.plain (toString value)]
  | .timestamp value => [.plain "TIMESTAMP ", .text value.text]

/-- A comparison of a column with a literal. -/
structure Predicate where
  column : String
  operator : Operator
  literal : SqlLiteral
deriving DecidableEq, Repr

/-- A predicate as it is written. -/
def Predicate.pieces (p : Predicate) : List Sql.Piece :=
  .name p.column :: .plain (" " ++ p.operator.symbol ++ " ") :: p.literal.pieces

/-- A predicate as a text. -/
def Predicate.text (p : Predicate) : String :=
  Sql.render p.pieces

/-- The literal for a value that a column of a type is compared with. -/
def literalFor (column : String) (type : FieldType) (value : FilterValue) :
    Except Failure SqlLiteral :=
  match value, type with
  | .string text, .string => .ok (.text text)
  | .number x, .number =>
    if x.isFinite then .ok (.number x)
    else .error (.invalidValue column (.filterNotFinite x.text))
  | .integer n, .number => .ok (.integer n)
  | .string text, .date =>
    match readDate? (Text.trim text) with
    | some t => .ok (.timestamp t)
    | none => .error (.invalidValue column (.filterNotADate text))
  | value, type => .error (.invalidValue column (.filterKind value.kind type))

/-- The predicate of a filter on a column, if the filter asks for anything. -/
def Filter.predicate? (filter : Filter) (column : String) (type : FieldType) :
    Except Failure (Option Predicate) :=
  match filter.comparison? with
  | none => .ok none
  | some (operator, value) =>
    match literalFor column type value with
    | .ok literal => .ok (some { column, operator, literal })
    | .error f => .error f

end TabularView
