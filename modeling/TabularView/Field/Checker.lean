import TabularView.Failure
import TabularView.Field.Date
import TabularView.Number.Shortest
import TabularView.Text.Blank

set_option autoImplicit false

/-! # Checkers

A checker recognises the values of one field type in two stages: `looksRight` is a test on the text
alone, `convert` builds the value and may still refuse, as for the thirteenth month. A column is of
a checker's type when both stages accept all its values.

The chain tries dates before numbers, because ten digits are both. -/

namespace TabularView

/-- A cell read as a date or a number. -/
inductive FieldValue
  | date (value : Instant)
  | number (value : Binary64)
deriving DecidableEq, Repr

/-- A recogniser for one field type. -/
structure Checker where
  fieldType : FieldType
  looksRight : String → Bool
  convert : String → Except Failure FieldValue

namespace Checker

/-- Both stages accept a text. -/
def accepts (c : Checker) (value : String) : Bool :=
  c.looksRight value && (c.convert value).isOk

/-- The value of a text as a date. -/
def convertDate (value : String) : Except Failure FieldValue :=
  match readDate? value with
  | some t => .ok (.date t)
  | none => .error (.invalidValue value (.notADate value))

/-- Recognises dates. -/
def date : Checker where
  fieldType := .date
  looksRight := looksLikeDate
  convert := convertDate

/-- A text that looks like a number: a literal over all Unicode digits. -/
def looksLikeNumber (value : String) : Bool :=
  (Numeral.scan Text.isDecimalDigit value.toList).isSome

/-- The value of a text as a number, if it is finite. -/
def convertNumber (value : String) : Except Failure FieldValue :=
  match Binary64.ofText? value.toList with
  | none => .error (.invalidValue value (.notANumber value))
  | some x =>
    if x.isFinite then .ok (.number x) else .error (.invalidValue value (.outOfRange value))

/-- Recognises numbers. -/
def number : Checker where
  fieldType := .number
  looksRight := looksLikeNumber
  convert := convertNumber

/-- The checkers in the order in which they are tried. -/
def chain : List Checker := [date, number]

end Checker

/-! ## Type names -/

/-- The field type that a text names, blanks around it and the case of its letters aside. -/
def FieldType.parse (value : String) : Except Failure FieldType :=
  match FieldType.ofName? (Text.upperAscii (Text.trim value)) with
  | some t => .ok t
  | none => .error (.invalidValue "fieldType" (.unknownFieldType value))

end TabularView
