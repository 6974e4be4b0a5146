import TabularView.Text.Hidden

set_option autoImplicit false

/-! # Texts shown with escapes

Messages show settings and paths between double quotes with the usual backslash escapes. A character
that could not be seen is shown as `u` with its hexadecimal number in braces; single quotes stand as
they are. -/

namespace TabularView.Text

/-- A character as a backslash and a letter, if it has such an escape. -/
def letterEscape? (c : Char) : Option Char :=
  if c = '\x00' then some '0'
  else if c = '\t' then some 't'
  else if c = '\r' then some 'r'
  else if c = '\n' then some 'n'
  else if c = '"' then some '"'
  else if c = '\\' then some '\\'
  else none

/-- A character by its hexadecimal number. -/
def numberEscape (c : Char) : List Char :=
  '\\' :: 'u' :: '\x7b' :: (Nat.toDigits 16 c.toNat ++ ['\x7d'])

/-- A character that is shown by its number. -/
def needsNumber (c : Char) : Bool :=
  if c.toNat < 0x80 then c.toNat < 0x20 || c.toNat == 0x7F else isHidden c.toNat

/-- A character inside a shown text. -/
def showChar (c : Char) : List Char :=
  match letterEscape? c with
  | some letter => ['\\', letter]
  | none => if needsNumber c then numberEscape c else [c]

/-- A text between double quotes. -/
def shown (s : String) : String :=
  String.ofList ('"' :: (s.toList.flatMap showChar ++ ['"']))

/-- A text that may be absent. -/
def shownOption : Option String → String
  | some s => "Some(" ++ shown s ++ ")"
  | none => "None"

end TabularView.Text
