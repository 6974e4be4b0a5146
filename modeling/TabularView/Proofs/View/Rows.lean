import Mathlib.Data.List.Basic
import Mathlib.Logic.Function.Basic
import TabularView.View.Clause

set_option autoImplicit false

/-! # The rows of a view

What an engine makes of the clauses of a view. A row gives every column a value or null, and a
database says which rows each source is read as. Tables are joined from first to last: a combination
of rows goes on with each row of the next table for which all conditions hold, and null is equal to
nothing, not even to null (`EqNonNull`).

A combination without such a row is dropped by an inner join and kept by the others; a full join
also keeps the rows of the next table that go with no combination. Where a table has no row in a
combination its columns are null. -/

namespace TabularView

/-- The values of a row by column; a value that is missing is null. -/
abbrev Row (Value : Type) := String → Option Value

/-- A row with these values; its other columns are null. -/
def Row.ofList {Value : Type} (values : List (String × Value)) : Row Value :=
  fun column => values.lookup column

/-- The rows that each source of a view is read as. -/
abbrev Database (Value : Type) := Source → List (Row Value)

/-- Rows of several tables side by side, each under the name of its table in the view. -/
abbrev Combination (Value : Type) := String → Option (Row Value)

variable {Value : Type}

/-! ## Values -/

/-- Two values are equal and none of them is null. -/
def EqNonNull (a b : Option Value) : Prop :=
  a = b ∧ a ≠ none

instance [DecidableEq Value] (a b : Option Value) : Decidable (EqNonNull a b) :=
  inferInstanceAs (Decidable (a = b ∧ a ≠ none))

theorem EqNonNull.symm {a b : Option Value} (h : EqNonNull a b) : EqNonNull b a :=
  ⟨h.1.symm, h.1 ▸ h.2⟩

theorem EqNonNull.trans {a b c : Option Value} (h : EqNonNull a b) (h' : EqNonNull b c) :
    EqNonNull a c :=
  ⟨h.1.trans h'.1, h.2⟩

namespace Combination

/-- No rows at all. -/
def empty : Combination Value :=
  fun _ => none

/-- A combination with a row of one more table. -/
def put (c : Combination Value) (table : String) (row : Row Value) : Combination Value :=
  Function.update c table (some row)

/-- The value of a column, which is null if its table has no row. -/
def value (c : Combination Value) (ref : ColumnRef) : Option Value :=
  (c ref.table).bind fun row => row ref.column

@[simp]
theorem put_self (c : Combination Value) (table : String) (row : Row Value) :
    c.put table row table = some row :=
  Function.update_self ..

theorem put_of_ne {table other : String} (h : other ≠ table) (c : Combination Value)
    (row : Row Value) : c.put table row other = c other :=
  Function.update_of_ne h ..

@[simp]
theorem value_put_self (c : Combination Value) (table column : String) (row : Row Value) :
    (c.put table row).value ⟨table, column⟩ = row column := by
  simp [value]

theorem value_put_of_ne {table other : String} (h : other ≠ table) (c : Combination Value)
    (column : String) (row : Row Value) :
    (c.put table row).value ⟨other, column⟩ = c.value ⟨other, column⟩ := by
  simp [value, put_of_ne h]

end Combination

/-! ## Conditions -/

/-- The two columns of a condition have one value. -/
def JoinCondition.Holds (j : JoinCondition) (c : Combination Value) : Prop :=
  EqNonNull (c.value j.left) (c.value j.right)

instance [DecidableEq Value] (j : JoinCondition) (c : Combination Value) : Decidable (j.Holds c) :=
  inferInstanceAs (Decidable (EqNonNull ..))

namespace JoinedSource

/-- All conditions of a joined table hold. -/
def Holds (j : JoinedSource) (c : Combination Value) : Prop :=
  ∀ condition ∈ j.conditions, condition.Holds c

instance [DecidableEq Value] (j : JoinedSource) (c : Combination Value) : Decidable (j.Holds c) :=
  inferInstanceAs (Decidable (∀ condition ∈ j.conditions, condition.Holds c))

variable [DecidableEq Value]

/-! ## Joins -/

/-- A combination with each row of the joined table that goes with it. -/
def matching (db : Database Value) (j : JoinedSource) (c : Combination Value) :
    List (Combination Value) :=
  ((db j.source).map (c.put j.source.name)).filter fun c => j.Holds c

/-- What becomes of a combination: without a row that goes with it, only inner joins drop it. -/
def extend (db : Database Value) (kind : JoinKind) (j : JoinedSource) (c : Combination Value) :
    List (Combination Value) :=
  match j.matching db c with
  | [] => if kind = .inner then [] else [c]
  | found => found

/-- The rows of the joined table that go with no combination. -/
def unmatched (db : Database Value) (j : JoinedSource) (left : List (Combination Value)) :
    List (Combination Value) :=
  ((db j.source).filter fun row => left.all fun c => ¬ j.Holds (c.put j.source.name row)).map
    (Combination.empty.put j.source.name)

/-- The combinations after one more table has been joined. -/
def join (db : Database Value) (kind : JoinKind) (j : JoinedSource)
    (left : List (Combination Value)) : List (Combination Value) :=
  left.flatMap (j.extend db kind) ++ if kind = .full then j.unmatched db left else []

theorem join_full (db : Database Value) (j : JoinedSource) (left : List (Combination Value)) :
    j.join db .full left = left.flatMap (j.extend db .full) ++ j.unmatched db left := by
  rw [join, if_pos rfl]

end JoinedSource

variable [DecidableEq Value]

/-- The combinations after tables have been joined one after the other. -/
def joinAll (db : Database Value) (kind : JoinKind) (joined : List JoinedSource)
    (left : List (Combination Value)) : List (Combination Value) :=
  joined.foldl (fun left j => j.join db kind left) left

/-- The combinations that the clause produces. -/
def FromClause.rows (db : Database Value) (f : FromClause) : List (Combination Value) :=
  joinAll db f.kind f.joined ((db f.first).map (Combination.empty.put f.first.name))

/-! ## Columns of the view -/

/-- What an expression is for a combination: the first value of several that is not null. -/
def Expression.value (c : Combination Value) : Expression → Option Value
  | .column ref => c.value ref
  | .coalesce refs => refs.findSome? c.value

/-- The value of a combination in the view's column of a name. -/
def ViewPlan.value (view : ViewPlan) (column : String) (c : Combination Value) : Option Value :=
  (view.projections.find? (·.name == column)).bind fun p => p.expression.value c

/-- The combinations that the view shows with a value in its column of a name. -/
def ViewPlan.showing (db : Database Value) (view : ViewPlan) (column : String) (v : Value) :
    List (Combination Value) :=
  (view.tables.rows db).filter fun c => view.value column c = some v

end TabularView
