import TabularView.Table.Stats

set_option autoImplicit false

/-! # Appending a file to a table

A file may extend a table if it is not the table's own file and its columns are the table's columns,
name by name. A type that one side does not know is taken from the other; two known types have to be
equal. Rows and bytes add up, widths take the larger. The sums are of natural numbers, which sums of
64 bits agree with below 2 ^ 64. -/

namespace TabularView

/-! ## Columns -/

/-- The type of a column with values of both types, if there is one. -/
def FieldType.merge? (current added : FieldType) : Option FieldType :=
  if current = added then some current
  else if current = .unknown then some added
  else if added = .unknown then some current
  else none

/-- The larger of two widths, of which either may be absent. -/
def mergeWidths : Option Nat → Option Nat → Option Nat
  | some a, some b => some (max a b)
  | some a, none => some a
  | none, b => b

/-- The column with the values of both. -/
def Column.merge (current added : Column) : Except Failure Column :=
  if current.name ≠ added.name then .error (.invalidValue added.name (.columnName current.name))
  else
    match current.fieldType.merge? added.fieldType with
    | none => .error (.invalidValue added.name (.columnType added.fieldType current.fieldType))
    | some fieldType =>
      .ok {
        name := current.name
        originalName := current.originalName
        fieldType := fieldType
        longestString :=
          if fieldType = .string then
            some ((mergeWidths current.longestString added.longestString).getD 0)
          else none }

/-- The columns with the values of both tables, from left to right up to the first misfit. -/
def mergeColumns : List Column → List Column → Except Failure (List Column)
  | current :: currents, added :: addeds => do
    let column ← current.merge added
    let columns ← mergeColumns currents addeds
    .ok (column :: columns)
  | _, _ => .ok []

/-! ## Tables -/

/-- The table extended by a file. -/
def TableStats.append (existing incoming : TableStats) : Except Failure TableStats :=
  if existing.fileName = incoming.fileName then .error (.fileExists incoming.fileName)
  else if existing.columns.length ≠ incoming.columns.length then
    .error (.invalidValue existing.tableName
      (.columnCount incoming.fileName incoming.columns.length existing.tableName
        existing.columns.length))
  else do
    let columns ← mergeColumns existing.columns incoming.columns
    .ok {
      fileName := existing.fileName
      tableName := existing.tableName
      numberOfRows := existing.numberOfRows + incoming.numberOfRows
      numberOfColumns := existing.numberOfColumns
      columns := columns
      fileSize := existing.fileSize + incoming.fileSize }

theorem TableStats.tableName_append {existing incoming merged : TableStats}
    (h : existing.append incoming = .ok merged) : merged.tableName = existing.tableName := by
  unfold TableStats.append at h
  split at h
  · cases h
  · split at h
    · cases h
    · cases hc : mergeColumns existing.columns incoming.columns with
      | error f => rw [hc] at h; cases h
      | ok columns =>
        rw [hc] at h
        cases h
        rfl

end TabularView
