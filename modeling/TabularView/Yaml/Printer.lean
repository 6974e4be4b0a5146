import TabularView.Text.Digit
import TabularView.Yaml.Scalar

set_option autoImplicit false

/-! # Writing YAML scalars

A word is written plainly. Any other text stands between double quotes, with characters that are not
printable ASCII escaped by number. -/

namespace TabularView.Yaml

/-- The last `width` hexadecimal digits of a number. -/
def hexDigits (width n : Nat) : List Char :=
  (List.range width).reverse.map fun i => Text.hexChar ((n >>> (4 * i)) % 16)

/-- A character between double quotes. -/
def escapeChar (c : Char) : List Char :=
  if c = '"' ∨ c = '\\' then ['\\', c]
  else if 0x20 ≤ c.toNat ∧ c.toNat ≤ 0x7E then [c]
  else '\\' :: 'U' :: hexDigits 8 c.toNat

/-- A text between double quotes. -/
def quoted (s : String) : String :=
  String.ofList ('"' :: (s.toList.flatMap escapeChar ++ ['"']))

/-- An entry of a mapping on a line of its own, its value as it is to be written. -/
def entryLine (name value : String) : String :=
  name ++ ": " ++ value ++ "\n"

end TabularView.Yaml
