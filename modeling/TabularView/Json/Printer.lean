import TabularView.Json.Basic
import TabularView.Text.Digit
import TabularView.Text.Join

set_option autoImplicit false

/-! # Writing JSON

Values are written on one line, or spread over lines with two more blanks at each level. Characters
beyond ASCII are written as they are; quotes, backslashes and control characters are escaped. -/

namespace TabularView.Json

/-! ## Scalars -/

/-- A character inside a string. -/
def escapeChar (c : Char) : List Char :=
  if c = '"' then ['\\', '"']
  else if c = '\\' then ['\\', '\\']
  else if c = '\n' then ['\\', 'n']
  else if c = '\r' then ['\\', 'r']
  else if c = '\t' then ['\\', 't']
  else if c = '\x08' then ['\\', 'b']
  else if c = '\x0c' then ['\\', 'f']
  else if c.toNat < 0x20 then
    ['\\', 'u', '0', '0', Text.hexChar (c.toNat / 16), Text.hexChar (c.toNat % 16)]
  else [c]

/-- A string between quotes. -/
def quoted (s : String) : String :=
  String.ofList ('"' :: (s.toList.flatMap escapeChar ++ ['"']))

/-- A number; decimal ones as digits and a power of ten. -/
def numberText : JsonNumber → String
  | .whole n => toString n
  | .decimal d =>
    (if d.negative then "-" else "") ++ toString d.digits ++ "e" ++ toString d.exponent

/-! ## Values -/

/-- A line break, and two blanks for each level. -/
def newLine (level : Nat) : String :=
  String.ofList ('\n' :: List.replicate (2 * level) ' ')

mutual

/-- A value on one line. -/
def compact : Json → String
  | .null => "null"
  | .bool value => if value then "true" else "false"
  | .number value => numberText value
  | .string value => quoted value
  | .array items => "[" ++ Text.joinWith "," (compactItems items) ++ "]"
  | .object fields => "\x7b" ++ Text.joinWith "," (compactFields fields) ++ "\x7d"

/-- The items, each on one line. -/
def compactItems : List Json → List String
  | [] => []
  | j :: rest => compact j :: compactItems rest

/-- The fields, each on one line. -/
def compactFields : List (String × Json) → List String
  | [] => []
  | (name, j) :: rest => (quoted name ++ ":" ++ compact j) :: compactFields rest

end

mutual

/-- A value spread over lines, itself standing at a level. -/
def pretty (level : Nat) : Json → String
  | .null => "null"
  | .bool value => if value then "true" else "false"
  | .number value => numberText value
  | .string value => quoted value
  | .array [] => "[]"
  | .array (j :: rest) =>
    "[" ++ Text.joinWith "," (prettyItems (level + 1) (j :: rest)) ++ newLine level ++ "]"
  | .object [] => "\x7b\x7d"
  | .object (field :: rest) =>
    "\x7b" ++ Text.joinWith "," (prettyFields (level + 1) (field :: rest)) ++ newLine level ++
      "\x7d"

/-- The items, each on lines of its own. -/
def prettyItems (level : Nat) : List Json → List String
  | [] => []
  | j :: rest => (newLine level ++ pretty level j) :: prettyItems level rest

/-- The fields, each on lines of its own. -/
def prettyFields (level : Nat) : List (String × Json) → List String
  | [] => []
  | (name, j) :: rest =>
    (newLine level ++ quoted name ++ ": " ++ pretty level j) :: prettyFields level rest

end

end TabularView.Json
