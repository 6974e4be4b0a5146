import TabularView.Field.Type
import TabularView.Sql.Piece

set_option autoImplicit false

/-! # The clauses of a view

A view is a list of projections over a chain of joins. Here are its clauses as data, each with the
pieces of SQL that write it. -/

namespace TabularView

/-! ## Kinds of join -/

/-- Which rows without a partner a join keeps. -/
inductive JoinKind
  | inner
  | left
  | full
deriving DecidableEq, Repr, Inhabited

namespace JoinKind

/-- The name of a kind in settings and results. -/
def name : JoinKind → String
  | .inner => "inner"
  | .left => "left"
  | .full => "full"

/-- The kind with a name. -/
def ofName? (name : String) : Option JoinKind :=
  [inner, left, full].find? (·.name == name)

/-- The words that join a table. -/
def keyword : JoinKind → String
  | .inner => "INNER JOIN"
  | .left => "LEFT OUTER JOIN"
  | .full => "FULL OUTER JOIN"

theorem ofName?_name (k : JoinKind) : ofName? k.name = some k := by
  cases k <;> rfl

end JoinKind

/-! ## References and conditions -/

/-- A column of a table in the view. -/
structure ColumnRef where
  table : String
  column : String
deriving DecidableEq, Repr

/-- A reference as it is written. -/
def ColumnRef.pieces (r : ColumnRef) : List Sql.Piece :=
  [.name r.table, .plain ".", .name r.column]

/-- Two columns that have to be equal. -/
structure JoinCondition where
  left : ColumnRef
  right : ColumnRef
deriving DecidableEq, Repr

/-- A condition as it is written. -/
def JoinCondition.pieces (c : JoinCondition) : List Sql.Piece :=
  c.left.pieces ++ .plain " = " :: c.right.pieces

/-! ## Sources -/

/-- A table of the engine under its name in the view. -/
structure Source where
  backingTable : String
  name : String
deriving DecidableEq, Repr

/-- A source as it is written. -/
def Source.pieces (s : Source) : List Sql.Piece :=
  [.name s.backingTable, .plain " AS ", .name s.name]

/-- A table joined to those before it. -/
structure JoinedSource where
  source : Source
  conditions : List JoinCondition
deriving DecidableEq, Repr

/-- The tables of a view in the order in which they are joined. -/
structure FromClause where
  kind : JoinKind
  first : Source
  joined : List JoinedSource
deriving DecidableEq, Repr

/-- A joined table on a line of its own. -/
def JoinedSource.pieces (kind : JoinKind) (j : JoinedSource) : List Sql.Piece :=
  .plain ("\n" ++ kind.keyword ++ " ") :: j.source.pieces ++
    .plain " ON " :: Sql.separated " AND " (j.conditions.map (·.pieces))

/-- The clause as it is written. -/
def FromClause.pieces (f : FromClause) : List Sql.Piece :=
  .plain "FROM " :: f.first.pieces ++ f.joined.flatMap (·.pieces f.kind)

/-! ## Projections -/

/-- What a column of the view is computed from: one column, or the first of several that is not
null. -/
inductive Expression
  | column (ref : ColumnRef)
  | coalesce (refs : List ColumnRef)
deriving DecidableEq, Repr

/-- An expression as it is written. -/
def Expression.pieces : Expression → List Sql.Piece
  | .column ref => ref.pieces
  | .coalesce refs =>
    .plain "COALESCE(" :: Sql.separated ", " (refs.map (·.pieces)) ++ [.plain ")"]

/-- A column of the view. -/
structure Projection where
  expression : Expression
  name : String
  fieldType : FieldType
deriving DecidableEq, Repr

/-- A projection as it is written. -/
def Projection.pieces (p : Projection) : List Sql.Piece :=
  p.expression.pieces ++ [.plain " AS ", .name p.name]

/-! ## The whole view -/

/-- A view with its clauses. -/
structure ViewPlan where
  name : String
  projections : List Projection
  tables : FromClause
deriving DecidableEq, Repr

/-- The statement that creates the view, in pieces. -/
def ViewPlan.pieces (v : ViewPlan) : List Sql.Piece :=
  [.plain "CREATE OR REPLACE VIEW ", .name v.name, .plain " AS\nSELECT\n  "] ++
    Sql.separated ",\n  " (v.projections.map (·.pieces)) ++ .plain "\n" :: v.tables.pieces

/-- The statement that creates the view. -/
def ViewPlan.statement (v : ViewPlan) : String :=
  Sql.render v.pieces

/-! ## What is known of a view -/

/-- A column of a view with its type. -/
structure ViewColumn where
  name : String
  fieldType : FieldType
deriving DecidableEq, Repr

/-- A view by name, statement and columns. -/
structure ViewDefinition where
  name : String
  statement : String
  columns : List ViewColumn
deriving DecidableEq, Repr

/-- The type of the first column with a name. -/
def ViewDefinition.columnType? (v : ViewDefinition) (name : String) : Option FieldType :=
  (v.columns.find? (·.name == name)).map (·.fieldType)

/-- What a planned view makes known of itself. -/
def ViewPlan.definition (v : ViewPlan) : ViewDefinition where
  name := v.name
  statement := v.statement
  columns := v.projections.map fun p => { name := p.name, fieldType := p.fieldType }

end TabularView
