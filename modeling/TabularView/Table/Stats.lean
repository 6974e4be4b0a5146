import TabularView.Column.Inference
import TabularView.Csv.Record
import TabularView.PathName
import TabularView.Problem

set_option autoImplicit false

/-! # Tables and the files they are read from

A table is known by what reading its file found out: its columns with their inferred types, and how
many rows and bytes there were. Reading goes on past bad cells and over-long rows; it records them,
up to a thousand a file, and counts the rest.

`TableReader.read` is a fold over the rows. It fails only on a stream that breaks off, a missing
header row, or a header that is not text. -/

namespace TabularView

/-! ## What is known of a table -/

/-- A table as read from a file. -/
structure TableStats where
  fileName : String
  tableName : String
  numberOfRows : Nat
  numberOfColumns : Nat
  columns : List Column
  fileSize : Nat
deriving DecidableEq, Repr

/-- The first column with a name. -/
def TableStats.column? (t : TableStats) (name : String) : Option Column :=
  t.columns.find? (·.name == name)

/-- A table with the problems met while reading it. -/
structure TableReport where
  stats : TableStats
  problems : List Problem
  suppressed : Nat
deriving DecidableEq, Repr

/-! ## Reading rows -/

/-- What is wanted of a file: its name, the table it belongs to, and how to read its bytes. -/
structure TableReader where
  fileName : String
  tableName : String
  delimiter : Option UInt8 := none
  encoding : Encoding := .utf8

namespace TableReader

/-- A reader for a file that says nothing else. -/
def ofFile (fileName : String) : TableReader where
  fileName := fileName
  tableName := PathName.tableName fileName

/-- At most this many problems of a file are recorded. -/
def problemLimit : Nat := 1000

/-- A problem of this file's values. -/
def problem (r : TableReader) (message : String) : Problem where
  fileName := r.fileName
  tableName := some r.tableName
  errorType := .invalidFieldValue
  message := message

/-- The notice about a row with more fields than the header. -/
def overlong (r : TableReader) (row found declared : Nat) : Problem :=
  (r.problem ("Row has " ++ toString found ++ " field(s) but the header declares " ++
    toString declared ++ "; extra fields ignored")).atRow row

/-- A column while its cells are being read. -/
structure ColumnState where
  name : String
  originalName : String
  inference : ColumnInference

/-- The state of a column after one of its cells, and the problem with the cell if there is one.
Empty cells say nothing. -/
def readCell (r : TableReader) (row index : Nat) (c : ColumnState) (cell : Bytes) :
    ColumnState × List Problem :=
  if cell = [] then (c, [])
  else
    match r.encoding.decode? cell with
    | none =>
      (c, [((r.problem ("Value is not valid " ++ r.encoding.name ++ " text")).atRow row).atColumn
        index c.name])
    | some value =>
      let (inference, rejection) := c.inference.observe value
      let problems := match rejection with
        | none => []
        | some rejected =>
          [(((r.problem rejected.message).atRow row).atColumn index c.name).withValue value]
      ({ c with inference }, problems)

/-- The columns after one row of cells, from the column with a given index on. A short row leaves
the columns it does not reach alone. -/
def readCells (r : TableReader) (row : Nat) :
    Nat → List ColumnState → List Bytes → List ColumnState × List Problem
  | _, [], _ => ([], [])
  | _, columns, [] => (columns, [])
  | index, c :: columns, cell :: cells =>
    let (c, found) := r.readCell row index c cell
    let (columns, more) := readCells r row (index + 1) columns cells
    (c :: columns, found ++ more)

/-- The columns after one row, with the row's problems from left to right. -/
def readRow (r : TableReader) (row : Nat) (columns : List ColumnState) (cells : Csv.Record) :
    List ColumnState × List Problem :=
  let (after, problems) := r.readCells row 0 columns cells
  if columns.length < cells.length then
    (after, r.overlong row cells.length columns.length :: problems)
  else (after, problems)

/-- The columns after all rows from a given index on, with the problems in the order of rows. -/
def readRows (r : TableReader) :
    Nat → List ColumnState → List Csv.Record → List ColumnState × List Problem
  | _, columns, [] => (columns, [])
  | row, columns, cells :: rest =>
    let (columns, found) := r.readRow row columns cells
    let (columns, more) := readRows r (row + 1) columns rest
    (columns, found ++ more)

/-! ## Reading a file -/

/-- The header texts of a record from a given position on; all of them have to be text. -/
def readHeaders (r : TableReader) (position : Nat) : Csv.Record → Except Failure (List String)
  | [] => .ok []
  | field :: rest =>
    match r.encoding.decode? field with
    | none => .error (.unexpected (.undecodableHeader position r.encoding.name))
    | some header =>
      match readHeaders r (position + 1) rest with
      | .ok headers => .ok (Text.trim header :: headers)
      | .error f => .error f

/-- The columns of a header row before any cell has been read. -/
def startColumns (headers : List String) : List ColumnState :=
  (headers.zip (ColumnName.normalizeHeaders headers)).map fun (originalName, name) =>
    { name, originalName, inference := .start Checker.chain }

/-- The report on a file with a header row and data rows. -/
def report (r : TableReader) (headers : List String) (rows : List Csv.Record) (fileSize : Nat) :
    TableReport :=
  let (columns, problems) := r.readRows 0 (startColumns headers) rows
  { stats := {
      fileName := r.fileName
      tableName := r.tableName
      numberOfRows := rows.length
      numberOfColumns := columns.length
      columns := columns.map fun c => c.inference.finish c.name c.originalName
      fileSize := fileSize }
    problems := problems.take problemLimit
    suppressed := problems.length - problemLimit }

/-- Reads a file. A header that is not text is noticed before a stream that breaks off later. -/
def read (r : TableReader) (stream : ByteStream) : Except Failure TableReport :=
  let reading := Csv.read (PathName.delimiter r.fileName r.delimiter) stream
  match reading.records with
  | [] =>
    match reading.failure with
    | some text => .error (.stream text)
    | none => .error (.unexpected (.noHeader r.fileName))
  | header :: rows => do
    let headers ← r.readHeaders 1 header
    match reading.failure with
    | some text => .error (.stream text)
    | none => .ok (r.report headers rows stream.bytes.length)

end TableReader

end TabularView
