set_option autoImplicit false

/-! # Text measured in UTF-16 code units

Column widths are counted in UTF-16 code units: a character of the basic plane counts one, any
other two. -/

namespace TabularView.Text

/-- The number of UTF-16 code units of a character: two beyond the basic plane. -/
def charUnits16 (c : Char) : Nat :=
  if c.toNat < 0x10000 then 1 else 2

/-- The number of UTF-16 code units of characters in a row. -/
def charsUnits16 : List Char → Nat
  | [] => 0
  | c :: rest => charUnits16 c + charsUnits16 rest

/-- The length of a text in UTF-16 code units. -/
def units16 (s : String) : Nat :=
  charsUnits16 s.toList

theorem one_le_charUnits16 (c : Char) : 1 ≤ charUnits16 c := by
  unfold charUnits16
  split <;> omega

end TabularView.Text
