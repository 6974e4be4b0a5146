set_option autoImplicit false

/-! # ASCII letter case

Storage names, field types and encoding labels are compared and written without regard to the case
of the 26 ASCII letters; every other character is left alone. `Char.toLower` of the core library is
exactly this map, so the module only lifts it to texts. -/

namespace TabularView.Text

/-- The text with ASCII capitals made small. -/
def lowerAscii (s : String) : String :=
  String.ofList (s.toList.map Char.toLower)

/-- The text with small ASCII letters made capital. -/
def upperAscii (s : String) : String :=
  String.ofList (s.toList.map Char.toUpper)

theorem toList_lowerAscii (s : String) : (lowerAscii s).toList = s.toList.map Char.toLower := by
  simp [lowerAscii]

theorem lowerAscii_append (s t : String) : lowerAscii (s ++ t) = lowerAscii s ++ lowerAscii t := by
  apply String.toList_inj.mp
  simp [lowerAscii]

/-- Equality up to the case of ASCII letters. -/
def eqIgnoringCase (s t : String) : Bool :=
  lowerAscii s == lowerAscii t

end TabularView.Text
