import TabularView.Batch.Result
import TabularView.Json.Fields

set_option autoImplicit false

/-! # Results as JSON

A result is written to a file and read back as the starting point of the next batch or of a query.
Each record has one writer and one reader, next to each other. Readers want every field that is not
optional exactly once and of the right type; other fields do not matter. They also take a record
that was written as the list of its values. -/

namespace TabularView

/-! ## Columns and tables -/

/-- A field type by name. -/
def FieldType.toJson (t : FieldType) : Json :=
  .string t.name

/-- A field type by name. -/
def FieldType.ofJson? (j : Json) : Option FieldType :=
  j.choice? FieldType.ofName?

/-- A column; a width that is not known is left out. -/
def Column.toJson (c : Column) : Json :=
  .object ([
    ("name", .string c.name),
    ("originalName", .string c.originalName),
    ("fieldType", c.fieldType.toJson)] ++
    Json.optionalField "longestString" Json.ofNat c.longestString)

/-- A column. -/
def Column.ofJson? (j : Json) : Option Column := do
  let fields ← j.record? ["name", "originalName", "fieldType", "longestString"] 1
  let name ← Json.field? "name" Json.text? fields
  let originalName ← Json.field? "originalName" Json.text? fields
  let fieldType ← Json.field? "fieldType" FieldType.ofJson? fields
  let longestString ← Json.option? "longestString" Json.count? fields
  some { name, originalName, fieldType, longestString }

/-- A table. -/
def TableStats.toJson (t : TableStats) : Json :=
  .object [
    ("fileName", .string t.fileName),
    ("tableName", .string t.tableName),
    ("numberOfRows", .ofNat t.numberOfRows),
    ("numberOfColumns", .ofNat t.numberOfColumns),
    ("columns", .array (t.columns.map (·.toJson))),
    ("fileSize", .ofNat t.fileSize)]

/-- A table. -/
def TableStats.ofJson? (j : Json) : Option TableStats := do
  let fields ← j.record?
    ["fileName", "tableName", "numberOfRows", "numberOfColumns", "columns", "fileSize"] 0
  let fileName ← Json.field? "fileName" Json.text? fields
  let tableName ← Json.field? "tableName" Json.text? fields
  let numberOfRows ← Json.field? "numberOfRows" Json.count? fields
  let numberOfColumns ← Json.field? "numberOfColumns" Json.count? fields
  let columns ← Json.field? "columns" (Json.list? Column.ofJson?) fields
  let fileSize ← Json.field? "fileSize" Json.count? fields
  some { fileName, tableName, numberOfRows, numberOfColumns, columns, fileSize }

/-! ## Problems -/

/-- A problem; a table that is not known is left out, other unknown places are null. -/
def Problem.toJson (p : Problem) : Json :=
  .object (
    ("fileName", .string p.fileName) :: Json.optionalField "tableName" Json.string p.tableName ++ [
    ("rowIndex", .ofOption Json.ofNat p.rowIndex),
    ("columnIndex", .ofOption Json.ofNat p.columnIndex),
    ("columnName", .ofOption Json.string p.columnName),
    ("columnValue", .ofOption Json.string p.columnValue),
    ("errorType", .string p.errorType.name),
    ("message", .string p.message)])

/-- A problem. -/
def Problem.ofJson? (j : Json) : Option Problem := do
  let fields ← j.record?
    ["fileName", "tableName", "rowIndex", "columnIndex", "columnName", "columnValue", "errorType",
      "message"] 0
  let fileName ← Json.field? "fileName" Json.text? fields
  let tableName ← Json.option? "tableName" Json.text? fields
  let rowIndex ← Json.option? "rowIndex" Json.count? fields
  let columnIndex ← Json.option? "columnIndex" Json.count? fields
  let columnName ← Json.option? "columnName" Json.text? fields
  let columnValue ← Json.option? "columnValue" Json.text? fields
  let errorType ← Json.field? "errorType" (Json.choice? ErrorKind.ofName?) fields
  let message ← Json.field? "message" Json.text? fields
  some {
    fileName, tableName, rowIndex, columnIndex, columnName, columnValue, errorType, message }

/-! ## Joins and views -/

/-- A planned column; a width that is not known is left out. -/
def JoinColumn.toJson (c : JoinColumn) : Json :=
  .object (
    [("columnIndex", .ofNat c.columnIndex),
    ("columnName", .string c.columnName),
    ("columnType", c.columnType.toJson)] ++
    Json.optionalField "columnLength" Json.ofNat c.columnLength ++
    [("isJoinColumn", .bool c.isJoinColumn),
    ("isSelectedColumn", .bool c.isSelectedColumn)])

/-- A planned column. -/
def JoinColumn.ofJson? (j : Json) : Option JoinColumn := do
  let fields ← j.record?
    ["columnIndex", "columnName", "columnType", "columnLength", "isJoinColumn",
      "isSelectedColumn"] 0
  let columnIndex ← Json.field? "columnIndex" Json.count? fields
  let columnName ← Json.field? "columnName" Json.text? fields
  let columnType ← Json.field? "columnType" FieldType.ofJson? fields
  let columnLength ← Json.option? "columnLength" Json.count? fields
  let isJoinColumn ← Json.field? "isJoinColumn" Json.flag? fields
  let isSelectedColumn ← Json.field? "isSelectedColumn" Json.flag? fields
  some { columnIndex, columnName, columnType, columnLength, isJoinColumn, isSelectedColumn }

/-- A planned table. -/
def JoinTable.toJson (t : JoinTable) : Json :=
  .object [
    ("tableName", .string t.tableName),
    ("backingTableName", .string t.backingTableName),
    ("fileName", .string t.fileName),
    ("columns", .array (t.columns.map (·.toJson)))]

/-- A planned table. -/
def JoinTable.ofJson? (j : Json) : Option JoinTable := do
  let fields ← j.record? ["tableName", "backingTableName", "fileName", "columns"] 0
  let tableName ← Json.field? "tableName" Json.text? fields
  let backingTableName ← Json.field? "backingTableName" Json.text? fields
  let fileName ← Json.field? "fileName" Json.text? fields
  let columns ← Json.field? "columns" (Json.list? JoinColumn.ofJson?) fields
  some { tableName, backingTableName, fileName, columns }

/-- A column of a view. -/
def ViewColumn.toJson (c : ViewColumn) : Json :=
  .object [("name", .string c.name), ("fieldType", c.fieldType.toJson)]

/-- A column of a view. -/
def ViewColumn.ofJson? (j : Json) : Option ViewColumn := do
  let fields ← j.record? ["name", "fieldType"] 0
  let name ← Json.field? "name" Json.text? fields
  let fieldType ← Json.field? "fieldType" FieldType.ofJson? fields
  some { name, fieldType }

/-- What is known of a view. -/
def ViewDefinition.toJson (v : ViewDefinition) : Json :=
  .object [
    ("name", .string v.name),
    ("statement", .string v.statement),
    ("columns", .array (v.columns.map (·.toJson)))]

/-- What is known of a view. -/
def ViewDefinition.ofJson? (j : Json) : Option ViewDefinition := do
  let fields ← j.record? ["name", "statement", "columns"] 0
  let name ← Json.field? "name" Json.text? fields
  let statement ← Json.field? "statement" Json.text? fields
  let columns ← Json.field? "columns" (Json.list? ViewColumn.ofJson?) fields
  some { name, statement, columns }

/-! ## Results -/

/-- The result of a batch. -/
def BatchResult.toJson (r : BatchResult) : Json :=
  .object [
    ("status", .string r.status.name),
    ("fileInformation", .array (r.fileInformation.map (·.toJson))),
    ("fileProcessingErrors", .array (r.problems.map (·.toJson))),
    ("joinInformation", .array (r.joinInformation.map (·.toJson))),
    ("joinKind", .string r.joinKind.name),
    ("viewName", .ofOption Json.string r.viewName),
    ("viewStatement", .ofOption Json.string r.viewStatement),
    ("tableStatements", .array (r.tableStatements.map Json.string))]

/-- The result of a batch. -/
def BatchResult.ofJson? (j : Json) : Option BatchResult := do
  let fields ← j.record?
    ["status", "fileInformation", "fileProcessingErrors", "joinInformation", "joinKind",
      "viewName", "viewStatement", "tableStatements"] 0
  let status ← Json.field? "status" (Json.choice? BatchStatus.ofName?) fields
  let fileInformation ← Json.field? "fileInformation" (Json.list? TableStats.ofJson?) fields
  let problems ← Json.field? "fileProcessingErrors" (Json.list? Problem.ofJson?) fields
  let joinInformation ← Json.field? "joinInformation" (Json.list? JoinTable.ofJson?) fields
  let joinKind ← Json.field? "joinKind" (Json.choice? JoinKind.ofName?) fields
  let viewName ← Json.option? "viewName" Json.text? fields
  let viewStatement ← Json.option? "viewStatement" Json.text? fields
  let tableStatements ← Json.field? "tableStatements" (Json.list? Json.text?) fields
  some {
    status, fileInformation, problems, joinInformation, joinKind, viewName, viewStatement,
    tableStatements }

end TabularView
