import TabularView.Json.Basic
import TabularView.Number.Word

set_option autoImplicit false

/-! # Reading records from JSON

What records have in common when they are read: a value of a wanted type, a value that may be null,
and a field that has to be there, may be missing, or has a default. A field that stands twice is not
read at all. -/

namespace TabularView.Json

/-! ## Values -/

/-- The text in a string. -/
def text? : Json → Option String
  | .string s => some s
  | _ => none

/-- The choice with a name. The name may also be the only field of an object, with nothing in it. -/
def choice? {α : Type} (ofName? : String → Option α) : Json → Option α
  | .string name => ofName? name
  | .object [(name, .null)] => ofName? name
  | _ => none

/-- The truth value in a flag. -/
def flag? : Json → Option Bool
  | .bool b => some b
  | _ => none

/-- The whole number in a value. -/
def whole? : Json → Option Int
  | .number (.whole n) => some n
  | _ => none

/-- A count: a whole number that is not negative and fits in 64 bits. -/
def count? (j : Json) : Option Nat :=
  match j.whole? with
  | some n => if isUnsigned64 n then some n.toNat else none
  | none => none

/-- A whole number that fits in 64 bits with a sign. -/
def signed? (j : Json) : Option Int :=
  match j.whole? with
  | some n => if isSigned64 n then some n else none
  | none => none

/-- The values of a list, all read the same way. -/
def list? {α : Type} (f : Json → Option α) : Json → Option (List α)
  | .array items => items.mapM f
  | _ => none

/-- A value that may be null. -/
def nullable? {α : Type} (f : Json → Option α) : Json → Option (Option α)
  | .null => some none
  | j => (f j).map some

/-! ## Fields -/

/-- The fields of a record: those of an object, or the items of a list under the record's names in
order. The last `spare` values of such a list may be missing. -/
def record? (names : List String) (spare : Nat) : Json → Option (List (String × Json))
  | .object fields => some fields
  | .array items =>
    if items.length ≤ names.length ∧ names.length ≤ items.length + spare then
      some (names.zip items)
    else none
  | _ => none

/-- A field that has to be there, once. -/
def field? {α : Type} (name : String) (f : Json → Option α) (fields : List (String × Json)) :
    Option α :=
  match valuesOf name fields with
  | [j] => f j
  | _ => none

/-- A field that may be missing or null, and is not there twice. -/
def option? {α : Type} (name : String) (f : Json → Option α) (fields : List (String × Json)) :
    Option (Option α) :=
  match valuesOf name fields with
  | [] => some none
  | [j] => nullable? f j
  | _ => none

/-- A field that has a default when it is missing, and is not there twice. -/
def fieldOr? {α : Type} (name : String) (f : Json → Option α) (default : α)
    (fields : List (String × Json)) : Option α :=
  match valuesOf name fields with
  | [] => some default
  | [j] => f j
  | _ => none

/-- A field that is written only when it has a value. -/
def optionalField {α : Type} (name : String) (f : α → Json) : Option α → List (String × Json)
  | some a => [(name, f a)]
  | none => []

end TabularView.Json
