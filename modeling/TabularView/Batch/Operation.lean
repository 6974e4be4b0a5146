import TabularView.Batch.TableMap
import TabularView.Batch.Upload
import TabularView.Table.Append

set_option autoImplicit false

/-! # Applying operations

Files are applied one after the other to the tables there are. An operation that does not fit, such
as adding a table that exists, is recorded and changes nothing; the problems met in reading its file
are recorded all the same.

Besides the tables, a batch keeps the names of tables that were rebuilt or deleted, as the engine
has to drop these. -/

namespace TabularView

/-- What reading a file has led to: a table to work with, or nothing for a deletion. -/
inductive Loaded
  | table (report : TableReport)
  | deletion
deriving DecidableEq, Repr

/-- A batch part way through. -/
structure BatchState where
  tables : TableMap
  problems : List Problem := []
  rebuilt : List String := []
  deleted : List String := []
deriving DecidableEq, Repr

namespace BatchState

/-- The state before any file. -/
def start (prior : List TableStats) : BatchState where
  tables := .ofTables prior

/-- The tables and marks after an operation on a table, if it fits. -/
def operate (s : BatchState) (table : String) (operation : FileOperation) (stats : TableStats) :
    Except Failure BatchState :=
  match operation, s.tables.find? table with
  | .delete, some _ =>
    .ok { s with tables := s.tables.erase table, deleted := table :: s.deleted }
  | .delete, none => .error (.noSuchTable table)
  | .add, some _ => .error (.tableExists table)
  | .add, none => .ok { s with tables := s.tables.insert table stats }
  | .replace, some _ =>
    .ok { s with tables := s.tables.insert table stats, rebuilt := table :: s.rebuilt }
  | .replace, none => .error (.noSuchTable table)
  | .append, some existing =>
    match existing.append stats with
    | .ok merged =>
      .ok { s with tables := s.tables.insert table merged, rebuilt := table :: s.rebuilt }
    | .error f => .error f
  | .append, none => .error (.noSuchTable table)

/-- The state with more problems recorded. -/
def record (s : BatchState) (problems : List Problem) : BatchState :=
  { s with problems := s.problems ++ problems }

/-- A table of which nothing is known; deletions have no other. -/
def noStats (u : Upload) : TableStats where
  fileName := u.fileName
  tableName := u.targetTable
  numberOfRows := 0
  numberOfColumns := 0
  columns := []
  fileSize := 0

/-- The state after a file that has been loaded. -/
def apply (s : BatchState) (u : Upload) (loaded : Loaded) : BatchState :=
  let (s, stats) := match loaded with
    | .table report => (s.record report.problems, report.stats)
    | .deletion => (s, noStats u)
  match s.operate u.targetTable u.operation stats with
  | .ok after => after
  | .error f => s.record [(Problem.ofFailure u.fileName f).inTable u.targetTable]

end BatchState

end TabularView
