import TabularView.Failure

set_option autoImplicit false

/-! # Recorded problems

A batch records each problem with the place where it arose: the file, and as far as they are known
the table, the row, the column and the value. Rows and columns are counted from zero in the record
and from one in its text. -/

namespace TabularView

/-- A problem recorded by a batch. -/
structure Problem where
  fileName : String
  tableName : Option String := none
  rowIndex : Option Nat := none
  columnIndex : Option Nat := none
  columnName : Option String := none
  columnValue : Option String := none
  errorType : ErrorKind
  message : String
deriving DecidableEq, Repr

namespace Problem

/-- The record of a failure in a file; a failure about a column names it. -/
def ofFailure (fileName : String) (f : Failure) : Problem where
  fileName := fileName
  columnName := f.column?
  errorType := f.kind
  message := f.message

/-- The same problem in a known table. -/
def inTable (p : Problem) (tableName : String) : Problem :=
  { p with tableName := some tableName }

/-- The same problem at a known row. -/
def atRow (p : Problem) (row : Nat) : Problem :=
  { p with rowIndex := some row }

/-- The same problem at a known column. -/
def atColumn (p : Problem) (index : Nat) (name : String) : Problem :=
  { p with columnIndex := some index, columnName := some name }

/-- The same problem with the value that caused it. -/
def withValue (p : Problem) (value : String) : Problem :=
  { p with columnValue := some value }

/-- Problems that end a batch. -/
def isBatchFatal (p : Problem) : Bool :=
  p.errorType.isBatchFatal

/-- The problem in one line. -/
def text (p : Problem) : String :=
  "[" ++ p.errorType.name ++ "] " ++ p.fileName ++
    (match p.rowIndex with
      | some row => " row " ++ toString (row + 1)
      | none => "") ++
    (match p.columnName with
      | some column => " column '" ++ column ++ "'"
      | none => "") ++
    ": " ++ p.message

end Problem

end TabularView
