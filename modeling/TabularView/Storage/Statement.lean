import TabularView.Join.Plan
import TabularView.Sql.Piece
import TabularView.Text.Blank
import TabularView.View.Plan

set_option autoImplicit false

/-! # Table statements

The engine learns of a table by a statement that names its columns, their storage types and the
directory that holds its data. Such a table can be dropped without losing the data, so a table whose
columns have changed is dropped and created anew. -/

namespace TabularView

/-! ## Storage types -/

/-- How the engine stores a column. -/
inductive StorageType
  | varchar (width : Nat)
  | double
  | timestamp
  | string
deriving DecidableEq, Repr

/-- The name of a storage type. -/
def StorageType.text : StorageType → String
  | .varchar width => "varchar(" ++ toString width ++ ")"
  | .double => "double"
  | .timestamp => "timestamp"
  | .string => "string"

/-- The storage type of a column. A text column is as wide as its longest value, and never without
width. -/
def JoinColumn.storageType (c : JoinColumn) : StorageType :=
  match c.columnType with
  | .string => .varchar (max (c.columnLength.getD 1) 1)
  | .number => .double
  | .date => .timestamp
  | .unknown => .string

/-! ## Statements -/

/-- A statement about a table of the engine. -/
inductive TableStatement
  | drop (table : String)
  | create (table : String) (columns : List (String × StorageType)) (location : String)
deriving DecidableEq, Repr

namespace TableStatement

/-- A statement in pieces. The location is written as it is. -/
def pieces : TableStatement → List Sql.Piece
  | .drop table => [.plain "DROP TABLE IF EXISTS ", .name table]
  | .create table columns location =>
    [.plain "CREATE EXTERNAL TABLE IF NOT EXISTS ", .name table, .plain " (\n"] ++
      Sql.separated ",\n" (columns.map fun (name, type) =>
        [.plain "  ", .name name, .plain (" " ++ type.text)]) ++
      [.plain ("\n)\nSTORED AS PARQUET\nLOCATION \x27" ++ location ++ "\x27")]

/-- A statement as it is written. -/
def text (s : TableStatement) : String :=
  Sql.render s.pieces

/-- The statement that creates a table over its data in a bucket. -/
def createFor (bucket : String) (model : Model) (t : JoinTable) :
    Except Failure TableStatement := do
  let directory ← model.dataDirectory t.tableName
  .ok (.create t.backingTableName
    ((sortByIndex t.columns).map fun c => (c.columnName, c.storageType))
    ("s3://" ++ Text.trimEnd '/' bucket ++ "/" ++ directory))

end TableStatement

end TabularView
