import TabularView.Table.Stats

set_option autoImplicit false

/-! # The order of tables

Tables are planned in one fixed order, so that the plan does not depend on the order of uploads:
by table name, file name, number of columns, number of rows, file size, and then column by column
by name, type, width and header. -/

namespace TabularView

/-! ## Comparing -/

/-- An absent number comes before every present one. -/
def compareOptions (a b : Option Nat) : Ordering :=
  match a, b with
  | none, none => .eq
  | none, some _ => .lt
  | some _, none => .gt
  | some a, some b => compare a b

/-- The order of columns. -/
def Column.compare (a b : Column) : Ordering :=
  (Ord.compare a.name b.name).then <|
    (Ord.compare a.fieldType.rank b.fieldType.rank).then <|
      (compareOptions a.longestString b.longestString).then <|
        Ord.compare a.originalName b.originalName

/-- The order of lists of columns: by the first difference, a shorter list before its
continuations. -/
def compareColumns : List Column → List Column → Ordering
  | [], [] => .eq
  | [], _ :: _ => .lt
  | _ :: _, [] => .gt
  | a :: as, b :: bs => (a.compare b).then (compareColumns as bs)

/-- The order of tables. -/
def TableStats.compare (a b : TableStats) : Ordering :=
  (Ord.compare a.tableName b.tableName).then <|
    (Ord.compare a.fileName b.fileName).then <|
      (Ord.compare a.numberOfColumns b.numberOfColumns).then <|
        (Ord.compare a.numberOfRows b.numberOfRows).then <|
          (Ord.compare a.fileSize b.fileSize).then <| compareColumns a.columns b.columns

/-- The tables in order; equal ones keep their places. -/
def sortTables (tables : List TableStats) : List TableStats :=
  tables.mergeSort fun a b => (a.compare b).isLE

theorem perm_sortTables (tables : List TableStats) : (sortTables tables).Perm tables :=
  List.mergeSort_perm tables _

/-! ## Remembering the last order -/

/-- The order found last, if tables have been sorted at all. -/
structure TableSorter where
  sorted : Option (List TableStats) := none

namespace TableSorter

/-- Sorts tables and remembers them. -/
def sort (_s : TableSorter) (tables : List TableStats) : TableSorter :=
  { sorted := some (sortTables tables) }

/-- The tables sorted last. -/
def tables (s : TableSorter) : Except Failure (List TableStats) :=
  match s.sorted with
  | some tables => .ok tables
  | none => .error (.misuse .notSorted)

end TableSorter

end TabularView
