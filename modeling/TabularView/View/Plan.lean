import TabularView.Join.Plan
import TabularView.Text.Fresh
import TabularView.View.Clause

set_option autoImplicit false

/-! # Planning a view

The tables of a view are joined one after the other: the first one, then again and again the
earliest remaining table that shares a join column with those already joined. Each of its join
columns that an earlier table holds gives a condition, against the first holder.

The view shows every key once and then the selected columns of each table; a name that is taken
gets a number. -/

namespace TabularView

/-! ## The order of joining -/

/-- The first element with a property, and the list without it. -/
def extractFirst? {α : Type} (p : α → Bool) : List α → Option (α × List α)
  | [] => none
  | a :: rest =>
    if p a then some (a, rest) else (extractFirst? p rest).map fun (b, others) => (b, a :: others)

theorem length_of_extractFirst? {α : Type} {p : α → Bool} {l : List α} {a : α} {others : List α}
    (h : extractFirst? p l = some (a, others)) : l.length = others.length + 1 := by
  induction l generalizing a others with
  | nil => simp [extractFirst?] at h
  | cons b rest ih =>
    rw [extractFirst?] at h
    split at h
    · simp only [Option.some.injEq, Prod.mk.injEq] at h
      simp [h.2]
    · obtain ⟨⟨c, more⟩, hc, he⟩ := Option.map_eq_some_iff.mp h
      simp only [Prod.mk.injEq] at he
      rw [List.length_cons, ih hc, ← he.2, List.length_cons]

/-- The names of a table's join columns. -/
def JoinTable.keyNames (t : JoinTable) : List String :=
  t.joinColumns.map (·.columnName)

/-- A table that shares a join column with the names given. -/
def JoinTable.sharesKey (names : List String) (t : JoinTable) : Bool :=
  t.keyNames.any names.contains

/-- The remaining tables in the order in which they are joined; the tables that share nothing, if
there are any. -/
def joinRemaining (names : List String) (remaining : List JoinTable) :
    Except (List JoinTable) (List JoinTable) :=
  match h : extractFirst? (·.sharesKey names) remaining with
  | some (next, others) =>
    have : others.length < remaining.length := by
      rw [length_of_extractFirst? h]
      omega
    match joinRemaining (next.keyNames ++ names) others with
    | .ok order => .ok (next :: order)
    | .error stuck => .error stuck
  | none => if remaining.isEmpty then .ok [] else .error remaining
termination_by remaining.length

/-- The tables after the first in the order in which they are joined to it. -/
def joinOrder (first : JoinTable) (rest : List JoinTable) : Except Failure (List JoinTable) :=
  match joinRemaining first.keyNames rest with
  | .ok order => .ok order
  | .error stuck =>
    .error (.tableSet (.unjoinable (stuck.map (·.tableName)) first.tableName))

/-! ## Keys and conditions -/

/-- A join column of the view: its name and type, and the tables that hold it in the order of
joining. -/
structure ViewKey where
  name : String
  fieldType : FieldType
  first : String
  others : List String
deriving DecidableEq, Repr

namespace ViewKey

/-- All tables that hold the key. -/
def holders (k : ViewKey) : List String :=
  k.first :: k.others

/-- What the view shows for the key. A full join may leave any holder empty, so the first holder
with a value counts. -/
def expression (kind : JoinKind) (k : ViewKey) : Expression :=
  if kind = .full ∧ k.others ≠ [] then
    .coalesce (k.holders.map fun table => { table, column := k.name })
  else .column { table := k.first, column := k.name }

end ViewKey

/-- The keys after one more holder, and the condition it brings. -/
def holdKey (table : String) (column : JoinColumn) :
    List ViewKey → List ViewKey × Option JoinCondition
  | [] =>
    ([{ name := column.columnName, fieldType := column.columnType, first := table, others := [] }],
      none)
  | k :: rest =>
    if k.name = column.columnName then
      ({ k with others := k.others ++ [table] } :: rest,
        some {
          left := { table, column := column.columnName }
          right := { table := k.first, column := column.columnName } })
    else
      let (keys, condition) := holdKey table column rest
      (k :: keys, condition)

/-- The keys after the join columns of a table, and the conditions they bring. -/
def holdKeys (table : String) :
    List JoinColumn → List ViewKey → List ViewKey × List JoinCondition
  | [], keys => (keys, [])
  | column :: rest, keys =>
    let (keys, condition) := holdKey table column keys
    let (keys, conditions) := holdKeys table rest keys
    (keys, condition.toList ++ conditions)

/-- A table under its own name. -/
def JoinTable.source (t : JoinTable) : Source where
  backingTable := t.backingTableName
  name := t.tableName

/-- The keys after all tables, and the tables with their conditions. -/
def joinSources : List JoinTable → List ViewKey → List ViewKey × List JoinedSource
  | [], keys => (keys, [])
  | t :: rest, keys =>
    let (keys, conditions) := holdKeys t.tableName t.joinColumns keys
    let (keys, joined) := joinSources rest keys
    (keys, { source := t.source, conditions } :: joined)

/-! ## Projections -/

/-- The projection of a key under the name it asks for. -/
def keyProjection (kind : JoinKind) (k : ViewKey) : Projection where
  expression := k.expression kind
  name := k.name
  fieldType := k.fieldType

/-- The projection of a selected column under the name it asks for. A join column asks for one with
its table in front, as the plain name belongs to the key. -/
def columnProjection (t : JoinTable) (c : JoinColumn) : Projection where
  expression := .column { table := t.tableName, column := c.columnName }
  name := if c.isJoinColumn then t.tableName ++ "_" ++ c.columnName else c.columnName
  fieldType := c.columnType

/-- The columns by their index; those with the same index keep their places. -/
def sortByIndex (columns : List JoinColumn) : List JoinColumn :=
  columns.mergeSort fun a b => a.columnIndex ≤ b.columnIndex

/-- The projections of a table's selected columns. -/
def tableProjections (t : JoinTable) : List Projection :=
  (sortByIndex t.selectedColumns).map (columnProjection t)

/-- The projections under names of which no two are the same. -/
def nameProjections (projections : List Projection) : List Projection :=
  (projections.zip (Text.freshen [] (projections.map (·.name)))).map fun (p, name) =>
    { p with name }

/-! ## The view -/

/-- The first table name that an earlier table has already. -/
def repeatedTable? (seen : List String) : List JoinTable → Option String
  | [] => none
  | t :: rest =>
    if seen.contains t.tableName then some t.tableName
    else repeatedTable? (t.tableName :: seen) rest

/-- The view over tables that are joined in this order. -/
def viewOver (kind : JoinKind) (name : String) (first : JoinTable) (order : List JoinTable) :
    ViewPlan :=
  let (keys, _) := holdKeys first.tableName first.joinColumns []
  let (keys, joined) := joinSources order keys
  { name := name
    projections := nameProjections
      (keys.map (keyProjection kind) ++ (first :: order).flatMap tableProjections)
    tables := { kind, first := first.source, joined } }

/-- Plans the view over tables. -/
def planView (kind : JoinKind) (name : String) (tables : List JoinTable) :
    Except Failure ViewPlan :=
  match tables with
  | [] => .error (.tableSet .noTableForView)
  | first :: rest =>
    match repeatedTable? [] tables with
    | some table => .error (.tableSet (.repeatedTable table))
    | none => do
      let order ← joinOrder first rest
      let view := viewOver kind name first order
      if view.projections.isEmpty then .error (.unexpected (.emptyProjection name)) else .ok view

/-! ## Remembering the last view -/

/-- The view defined last, if one has been defined at all. -/
structure ViewPlanner where
  kind : JoinKind := .left
  planned : Option ViewDefinition := none

namespace ViewPlanner

/-- Defines a view and remembers it; a failed attempt leaves the last one in place. -/
def define (p : ViewPlanner) (name : String) (tables : List JoinTable) :
    Except Failure ViewDefinition × ViewPlanner :=
  match planView p.kind name tables with
  | .ok view => (.ok view.definition, { p with planned := some view.definition })
  | .error f => (.error f, p)

/-- The view defined last. -/
def definition (p : ViewPlanner) : Except Failure ViewDefinition :=
  match p.planned with
  | some d => .ok d
  | none => .error (.misuse .noView)

end ViewPlanner

end TabularView
