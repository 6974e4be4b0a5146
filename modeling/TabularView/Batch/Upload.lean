import TabularView.Table.Stats
import TabularView.Text.Escaped

set_option autoImplicit false

/-! # Uploads

A batch consists of files, each with an operation on the table it belongs to: add a table, append to
one, replace one or delete one. A file belongs to the table that its upload names, or else to the
one named after it. -/

namespace TabularView

/-- What a file does to its table. -/
inductive FileOperation
  | add
  | append
  | replace
  | delete
deriving DecidableEq, Repr, Inhabited

namespace FileOperation

/-- All operations, in the order in which they are applied to one table and file name. -/
def all : List FileOperation := [add, append, replace, delete]

/-- The name of an operation in requests. -/
def name : FileOperation → String
  | .add => "ADD"
  | .append => "APPEND"
  | .replace => "REPLACE"
  | .delete => "DELETE"

/-- The operation with a name. -/
def ofName? (name : String) : Option FileOperation :=
  all.find? (·.name == name)

/-- The name of an operation on the command line. -/
def optionName : FileOperation → String
  | .add => "add"
  | .append => "append"
  | .replace => "replace"
  | .delete => "delete"

/-- The operation with a name on the command line. -/
def ofOptionName? (name : String) : Option FileOperation :=
  all.find? (·.optionName == name)

/-- The name of an operation in descriptions. -/
def title : FileOperation → String
  | .add => "Add"
  | .append => "Append"
  | .replace => "Replace"
  | .delete => "Delete"

/-- The position of an operation among all. -/
def rank : FileOperation → Nat
  | .add => 0
  | .append => 1
  | .replace => 2
  | .delete => 3

end FileOperation

/-- A file of a batch. -/
structure Upload where
  fileName : String
  operation : FileOperation := .add
  tableName : Option String := none
  stream : ByteStream
deriving DecidableEq, Repr

namespace Upload

/-- A request to delete the table named after a file; nothing is read. -/
def deletion (fileName : String) : Upload where
  fileName := fileName
  operation := .delete
  stream := { bytes := [] }

/-- The table that the file belongs to. -/
def targetTable (u : Upload) : String :=
  match u.tableName with
  | some table => table
  | none => PathName.tableName u.fileName

/-- The upload in one line, without its content. -/
def text (u : Upload) : String :=
  "RawFile \x7b file_name: " ++ Text.shown u.fileName ++ ", operation: " ++ u.operation.title ++
    ", table_name: " ++ Text.shownOption u.tableName ++ ", .. \x7d"

/-- The order in which files are applied: by table, file name and operation. -/
def compare (a b : Upload) : Ordering :=
  (Ord.compare a.targetTable b.targetTable).then <|
    (Ord.compare a.fileName b.fileName).then <| Ord.compare a.operation.rank b.operation.rank

/-- The files in the order in which they are applied; equal ones keep their places. -/
def sort (uploads : List Upload) : List Upload :=
  uploads.mergeSort fun a b => (a.compare b).isLE

theorem perm_sort (uploads : List Upload) : (sort uploads).Perm uploads :=
  List.mergeSort_perm uploads _

end Upload

end TabularView
