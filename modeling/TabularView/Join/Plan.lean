import TabularView.Join.DisjointSet
import TabularView.Storage.Segment
import TabularView.Table.Stats

set_option autoImplicit false

/-! # The join plan

Tables are joined on the column names they share. The type of a name is the first known type among
its columns, in the order of tables; the columns that are of this type, or of no known type, are the
name's members, and if there are two or more of them they are join columns. A column of another
known type is left out of the view and reported.

The plan exists when the join columns connect all tables. `JoinRole` says what becomes of a column:
by `role_eq_join_iff` and its companions that depends on its name and type alone. -/

namespace TabularView

/-! ## The planned tables -/

/-- A column of a planned table. -/
structure JoinColumn where
  columnIndex : Nat
  columnName : String
  columnType : FieldType
  columnLength : Option Nat := none
  isJoinColumn : Bool
  isSelectedColumn : Bool
deriving DecidableEq, Repr

/-- A table as the view will read it. -/
structure JoinTable where
  tableName : String
  backingTableName : String
  fileName : String
  columns : List JoinColumn
deriving DecidableEq, Repr

namespace JoinTable

/-- The columns that take part in joins. -/
def joinColumns (t : JoinTable) : List JoinColumn :=
  t.columns.filter (·.isJoinColumn)

/-- The columns that are shown under a name of their own. -/
def selectedColumns (t : JoinTable) : List JoinColumn :=
  t.columns.filter (·.isSelectedColumn)

/-- A join column with this name exists. -/
def hasJoinColumn (t : JoinTable) (name : String) : Bool :=
  t.joinColumns.any (·.columnName == name)

end JoinTable

/-! ## Where a name occurs -/

/-- A column among the tables of a batch: its table, its position there, and what it is. -/
structure Place where
  table : Nat
  index : Nat
  column : Column
deriving DecidableEq, Repr

/-- The columns of a table as places, from a position on. -/
def placesOfColumns (table : Nat) : Nat → List Column → List Place
  | _, [] => []
  | index, column :: rest => { table, index, column } :: placesOfColumns table (index + 1) rest

/-- The columns of the tables from one on, table by table. -/
def placesFrom : Nat → List TableStats → List Place
  | _, [] => []
  | table, t :: rest => placesOfColumns table 0 t.columns ++ placesFrom (table + 1) rest

/-- All columns of the tables, table by table. -/
def places (tables : List TableStats) : List Place :=
  placesFrom 0 tables

/-- A list of names in ascending order without repetitions, with one more name. -/
def insertName (name : String) : List String → List String
  | [] => [name]
  | other :: rest =>
    match compare name other with
    | .lt => name :: other :: rest
    | .eq => other :: rest
    | .gt => other :: insertName name rest

/-- The names of the places in ascending order, each once. -/
def namesOf (all : List Place) : List String :=
  all.foldl (fun names p => insertName p.column.name names) []

/-- The places of a name. -/
def placesNamed (all : List Place) (name : String) : List Place :=
  all.filter (·.column.name == name)

/-! ## Keys -/

/-- The first place of a name with a known type. -/
def keyPlace? (all : List Place) (name : String) : Option Place :=
  (placesNamed all name).find? (·.column.fieldType != .unknown)

/-- The type of a name: the first known one, or unknown if there is none. -/
def keyType (all : List Place) (name : String) : FieldType :=
  match keyPlace? all name with
  | some p => p.column.fieldType
  | none => .unknown

/-- A column of this type can be a member of a name of that type. -/
def fitsKey (key type : FieldType) : Bool :=
  type == key || type == .unknown

/-- The places that can be joined under a name. -/
def membersOf (all : List Place) (name : String) : List Place :=
  (placesNamed all name).filter fun p => fitsKey (keyType all name) p.column.fieldType

/-- The places of a name that are of another type. -/
def conflictsOf (all : List Place) (name : String) : List Place :=
  (placesNamed all name).filter fun p => !fitsKey (keyType all name) p.column.fieldType

/-- A name under which two or more columns are joined. -/
def isKey (all : List Place) (name : String) : Bool :=
  2 ≤ (membersOf all name).length

/-- What becomes of a column in the view. -/
inductive JoinRole
  | join
  | plain
  | excluded
deriving DecidableEq, Repr

/-- The role of a column with a name and a type. -/
def roleOf (all : List Place) (name : String) (type : FieldType) : JoinRole :=
  if !fitsKey (keyType all name) type then .excluded
  else if isKey all name then .join
  else .plain

theorem role_eq_join_iff (all : List Place) (name : String) (type : FieldType) :
    roleOf all name type = .join ↔
      fitsKey (keyType all name) type = true ∧ isKey all name = true := by
  unfold roleOf
  split
  · simp_all
  · split <;> simp_all

theorem role_eq_excluded_iff (all : List Place) (name : String) (type : FieldType) :
    roleOf all name type = .excluded ↔ fitsKey (keyType all name) type = false := by
  unfold roleOf
  split
  · simp_all
  · split <;> simp_all

/-! ## Connection -/

/-- The pairs of tables that a key joins: its first table with each of its members. -/
def keyEdges (all : List Place) (name : String) : List (Nat × Nat) :=
  if isKey all name then
    match placesNamed all name with
    | owner :: _ => (membersOf all name).map fun p => (owner.table, p.table)
    | [] => []
  else []

/-- The pairs of tables joined by any key, in ascending order of keys. -/
def edges (all : List Place) : List (Nat × Nat) :=
  (namesOf all).flatMap (keyEdges all)

/-- The tables connected by the keys. -/
def components (tables : List TableStats) : DisjointSet :=
  (DisjointSet.singletons tables.length).unionAll (edges (places tables))

/-- The names of the tables from position `i` on whose root is not `r`. -/
def detachedFrom (r : Nat) : Nat → List TableStats → DisjointSet → List String
  | _, [], _ => []
  | i, t :: rest, s =>
    let (found, s) := s.find i
    let later := detachedFrom r (i + 1) rest s
    if found = r then later else t.tableName :: later

/-- The names of the tables that are not connected to the first one. -/
def detachedTables (tables : List TableStats) : List String :=
  let (r, s) := (components tables).find 0
  detachedFrom r 1 (tables.drop 1) s

/-! ## The plan -/

/-- The planned tables and the columns that had to be left out. -/
structure JoinPlan where
  tables : List JoinTable
  problems : List Problem
deriving DecidableEq, Repr

/-- The report on a column whose type is not its name's. -/
def conflictProblem (tables : List TableStats) (all : List Place) (p : Place) : Problem :=
  let name := p.column.name
  let nameOfTable (i : Nat) : String := ((tables[i]?).map (·.tableName)).getD ""
  let fileOfTable (i : Nat) : String := ((tables[i]?).map (·.fileName)).getD ""
  let keyTable := ((keyPlace? all name).map (·.table)).getD 0
  { fileName := fileOfTable p.table
    tableName := some (nameOfTable p.table)
    columnIndex := some p.index
    columnName := some name
    errorType := .invalidFieldValue
    message := "Column '" ++ name ++ "' is " ++ p.column.fieldType.name ++ " here but " ++
      (keyType all name).name ++ " in table '" ++ nameOfTable keyTable ++
      "'; excluded from the view" }

/-- A column as the view will read it. Join columns are shown once as keys, and again under a name
of their own only if that is asked for. -/
def planColumn (all : List Place) (selectJoinColumns : Bool) (column : Column) (index : Nat) :
    JoinColumn :=
  let role := roleOf all column.name column.fieldType
  { columnIndex := index
    columnName := column.name
    columnType := column.fieldType
    columnLength := column.longestString
    isJoinColumn := role = .join
    isSelectedColumn := role = .plain || (role = .join && selectJoinColumns) }

/-- A table as the view will read it. -/
def planTable (model : Model) (all : List Place) (selectJoinColumns : Bool) (t : TableStats) :
    JoinTable where
  tableName := t.tableName
  backingTableName := model.tableName t.tableName
  fileName := t.fileName
  columns := t.columns.zipIdx.map fun (column, index) =>
    planColumn all selectJoinColumns column index

/-- Plans the join of tables that are in order already. -/
def planJoin (model : Model) (selectJoinColumns : Bool) (tables : List TableStats) :
    Except Failure JoinPlan :=
  match tables with
  | [] => .error (.tableSet .noTableInBatch)
  | first :: _ =>
    let all := places tables
    match detachedTables tables with
    | [] =>
      .ok {
        tables := tables.map (planTable model all selectJoinColumns)
        problems := (namesOf all).flatMap fun name =>
          (conflictsOf all name).map (conflictProblem tables all) }
    | detached => .error (.tableSet (.detached detached first.tableName))

end TabularView
