set_option autoImplicit false

/-! # Field types

A column holds texts, numbers or dates, or nothing that would tell. `FieldType.rank` fixes the order
in which types are compared when tables are sorted. -/

namespace TabularView

/-- The type of a column. -/
inductive FieldType
  | string
  | number
  | date
  | unknown
deriving DecidableEq, Repr, Inhabited

namespace FieldType

/-- The name of a type in results and messages. -/
def name : FieldType → String
  | .string => "STRING"
  | .number => "NUMBER"
  | .date => "DATE"
  | .unknown => "UNKNOWN"

/-- The type with a name, in capitals. -/
def ofName? (name : String) : Option FieldType :=
  [string, number, date, unknown].find? (·.name == name)

/-- The position of a type in the order of types. -/
def rank : FieldType → Nat
  | .string => 0
  | .number => 1
  | .date => 2
  | .unknown => 3

theorem ofName?_name (t : FieldType) : ofName? t.name = some t := by
  cases t <;> rfl

theorem rank_injective {s t : FieldType} (h : s.rank = t.rank) : s = t := by
  cases s <;> cases t <;> simp_all [rank]

end FieldType

end TabularView
