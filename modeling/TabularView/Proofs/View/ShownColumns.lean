import Mathlib.Data.List.Permutation
import TabularView.Proofs.Text.Fresh
import TabularView.Proofs.View.Columns
import TabularView.Proofs.View.KeyTypes

set_option autoImplicit false

/-! # What a view shows

A view shows every name that its tables join on once, in the order in which the names first appear
along the tables joined, and then the selected columns of each table. The statement and the list of
columns are made from the same projections, so that they stand side by side, and no two of them have
one name: a name that is taken gets the smallest number that makes it free (`shows_of_define`).

Nothing is assumed of the tables but that a view over them exists. -/

namespace TabularView

/-! ## Names of keys -/

/-- The join columns of a name in the tables, in their order. -/
def heldRefs (tables : List JoinTable) (name : String) : List ColumnRef :=
  tables.flatMap fun t => (t.joinColumns.filter (·.columnName == name)).map fun c =>
    { table := t.tableName, column := c.columnName }

/-- A projection shows a key: it has the key's name and the type of the first column held under it.
It reads that column or, in a full join of several, the first of them that has a value. -/
structure Projection.ShowsKey (kind : JoinKind) (tables : List JoinTable) (p : Projection)
    (key : String) : Prop where
  name : p.name = key
  fieldType : firstHeldType? tables key = some p.fieldType
  expression : ∃ first others, heldRefs tables key = first :: others ∧
    p.expression = if kind = .full ∧ others ≠ [] then .coalesce (first :: others) else .column first

/-- The selected columns of the tables, those of each table by their index. -/
def selectedInOrder (tables : List JoinTable) : List (JoinTable × JoinColumn) :=
  tables.flatMap fun t => (sortByIndex t.selectedColumns).map fun c => (t, c)

/-- The name that a selected column asks for. -/
def askedName (shown : JoinTable × JoinColumn) : String :=
  if shown.2.isJoinColumn then shown.1.tableName ++ "_" ++ shown.2.columnName
  else shown.2.columnName

/-- A projection shows a column of a table: it reads this column and has its type. -/
structure Projection.ShowsColumn (p : Projection) (shown : JoinTable × JoinColumn) : Prop where
  fieldType : p.fieldType = shown.2.columnType
  expression : p.expression =
    .column { table := shown.1.tableName, column := shown.2.columnName }

/-- A view over tables that are joined in this order shows the names that they join on, each where
it first appears, and then their selected columns. Statement and columns are made from the same
projections; each has the name that it asks for, or this name with the smallest number that no
projection before it has. -/
structure ViewDefinition.Shows (kind : JoinKind) (tables : List JoinTable) (v : ViewDefinition)
    (keys selected : List Projection) : Prop where
  statement : ∃ joins : FromClause, joins.kind = kind ∧ joins.sources = tables.map (·.source) ∧
    v.statement = "CREATE OR REPLACE VIEW " ++ Sql.quoteName v.name ++ " AS\nSELECT\n  " ++
      Text.joinWith ",\n  " ((keys ++ selected).map fun p =>
        Sql.render p.expression.pieces ++ " AS " ++ Sql.quoteName p.name) ++
      "\n" ++ Sql.render joins.pieces
  columns : v.columns = (keys ++ selected).map fun p => { name := p.name, fieldType := p.fieldType }
  keys : List.Forall₂ (Projection.ShowsKey kind tables) keys
    (tables.flatMap (·.keyNames)).eraseDups
  selected : List.Forall₂ Projection.ShowsColumn selected (selectedInOrder tables)
  names : ∀ (i : Nat) (asked given : String),
    ((tables.flatMap (·.keyNames)).eraseDups ++ (selectedInOrder tables).map askedName)[i]? =
      some asked →
    (v.columns.map (·.name))[i]? = some given →
    Text.IsFresh ((v.columns.map (·.name)).take i) asked given

end TabularView
