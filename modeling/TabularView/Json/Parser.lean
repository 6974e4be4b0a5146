import TabularView.Json.Basic

set_option autoImplicit false

/-! # Reading JSON

A reader by recursive descent over the characters of a text. Every step consumes at least one
character, so the length of the text bounds the recursion; `Json.parse?` gives that bound. Texts are
read strictly: no control characters in strings, no lone surrogates, no leading zeros, nothing after
the value. -/

namespace TabularView.Json

/-! ## Tokens -/

/-- Blanks between tokens. -/
def isSpace (c : Char) : Bool :=
  c == ' ' || c == '\n' || c == '\t' || c == '\r'

/-- The text from the next token on. -/
def skipSpaces (s : List Char) : List Char :=
  s.dropWhile isSpace

/-- The number written by four hexadecimal digits, and what follows them. -/
def fourHex? : List Char → Option (Nat × List Char)
  | a :: b :: c :: d :: rest => do
    let a ← Text.hexDigit? a
    let b ← Text.hexDigit? b
    let c ← Text.hexDigit? c
    let d ← Text.hexDigit? d
    some (((a * 16 + b) * 16 + c) * 16 + d, rest)
  | _ => none

/-- The character that a numeric escape stands for; a character beyond the basic plane takes two. -/
def unicodeEscape? (s : List Char) : Option (Char × List Char) := do
  let (high, rest) ← fourHex? s
  if 0xD800 ≤ high ∧ high ≤ 0xDBFF then
    match rest with
    | '\\' :: 'u' :: more => do
      let (low, rest) ← fourHex? more
      if 0xDC00 ≤ low ∧ low ≤ 0xDFFF then
        some (Char.ofNat (0x10000 + (high - 0xD800) * 0x400 + (low - 0xDC00)), rest)
      else none
    | _ => none
  else if 0xDC00 ≤ high ∧ high ≤ 0xDFFF then none
  else some (Char.ofNat high, rest)

/-- The character that an escape stands for, and what follows it. -/
def escape? : List Char → Option (Char × List Char)
  | '"' :: rest => some ('"', rest)
  | '\\' :: rest => some ('\\', rest)
  | '/' :: rest => some ('/', rest)
  | 'b' :: rest => some ('\x08', rest)
  | 'f' :: rest => some ('\x0c', rest)
  | 'n' :: rest => some ('\n', rest)
  | 'r' :: rest => some ('\r', rest)
  | 't' :: rest => some ('\t', rest)
  | 'u' :: rest => unicodeEscape? rest
  | _ => none

/-- The characters up to the closing quote, and what follows it. -/
def stringBody : Nat → List Char → Option (List Char × List Char)
  | 0, _ => none
  | _, [] => none
  | fuel + 1, c :: rest =>
    if c = '"' then some ([], rest)
    else if c = '\\' then do
      let (d, rest) ← escape? rest
      let (body, rest) ← stringBody fuel rest
      some (d :: body, rest)
    else if c.toNat < 0x20 then none
    else do
      let (body, rest) ← stringBody fuel rest
      some (c :: body, rest)

/-! ## Numbers -/

/-- Whole digits without a leading zero. -/
def isPlainWhole (digits : List Char) : Bool :=
  digits ≠ [] && (digits.length == 1 || digits.head? != some '0')

/-- The fraction after a point, if one is written. -/
def fraction? : List Char → Option (Option (List Char) × List Char)
  | '.' :: rest =>
    let digits := rest.takeWhile Text.isAsciiDigit
    if digits = [] then none else some (some digits, rest.drop digits.length)
  | s => some (none, s)

/-- The exponent, if one is written. -/
def exponent? : List Char → Option (Option (Bool × List Char) × List Char)
  | c :: rest =>
    if c = 'e' ∨ c = 'E' then
      let (negative, rest) := Numeral.splitSign rest
      let digits := rest.takeWhile Text.isAsciiDigit
      if digits = [] then none else some (some (negative, digits), rest.drop digits.length)
    else some (none, c :: rest)
  | [] => some (none, [])

/-- The number that digits continue `acc` to as long as it fits in 64 bits, and the digits from the
first that does not fit. -/
def fitDigits (acc : Nat) : List Char → Nat × List Char
  | [] => (acc, [])
  | c :: rest =>
    match Text.asciiDigit? c with
    | some d =>
      if isUnsigned64 (acc * 10 + d : Nat) then fitDigits (acc * 10 + d) rest else (acc, c :: rest)
    | none => (acc, c :: rest)

/-- The number with these parts. Digits that do not fit count only for the power of ten, and behind
the point not at all. -/
def numberOf (negative : Bool) (whole : List Char) (fraction : Option (List Char))
    (exponent : Option (Bool × List Char)) : Option JsonNumber := do
  let places := fraction.getD []
  let (exponentNegative, power) := exponent.getD (false, [])
  let e ← Text.readDigits? 0 power
  let (n, excess) := fitDigits 0 whole
  let (digits, dropped) := fitDigits n places
  let value : Int := if negative then -(n : Int) else n
  let fits := !negative || (n != 0 && isSigned64 value)
  if fraction.isNone ∧ exponent.isNone ∧ excess = [] ∧ fits then
    some (.whole value)
  else
    some (.decimal {
      negative := negative
      digits := digits
      exponent := (if exponentNegative then -(e : Int) else e) + excess.length -
        (places.length - dropped.length : Nat) })

/-- A number, and what follows it. -/
def number? (s : List Char) : Option (JsonNumber × List Char) := do
  let (negative, body) := match s with
    | '-' :: rest => (true, rest)
    | _ => (false, s)
  let whole := body.takeWhile Text.isAsciiDigit
  if isPlainWhole whole then
    let (fraction, rest) ← fraction? (body.drop whole.length)
    let (exponent, rest) ← exponent? rest
    let n ← numberOf negative whole fraction exponent
    some (n, rest)
  else none

/-- The text after a word that it starts with. -/
def word? (w : String) (s : List Char) : Option (List Char) :=
  if w.toList.isPrefixOf s then some (s.drop w.length) else none

/-! ## Values -/

mutual

/-- A value, and what follows it. -/
def value? : Nat → List Char → Option (Json × List Char)
  | 0, _ => none
  | fuel + 1, s =>
    match skipSpaces s with
    | '\x7b' :: rest =>
      match skipSpaces rest with
      | '\x7d' :: rest => some (.object [], rest)
      | rest => (fields? fuel rest).map fun (fields, rest) => (.object fields, rest)
    | '[' :: rest =>
      match skipSpaces rest with
      | ']' :: rest => some (.array [], rest)
      | rest => (items? fuel rest).map fun (items, rest) => (.array items, rest)
    | '"' :: rest =>
      (stringBody (rest.length + 1) rest).map fun (body, rest) =>
        (.string (String.ofList body), rest)
    | 't' :: rest => (word? "rue" rest).map fun rest => (.bool true, rest)
    | 'f' :: rest => (word? "alse" rest).map fun rest => (.bool false, rest)
    | 'n' :: rest => (word? "ull" rest).map fun rest => (.null, rest)
    | rest => (number? rest).map fun (n, rest) => (.number n, rest)

/-- One or more values with commas between, up to the closing bracket, and what follows it. -/
def items? : Nat → List Char → Option (List Json × List Char)
  | 0, _ => none
  | fuel + 1, s => do
    let (item, rest) ← value? fuel s
    match skipSpaces rest with
    | ',' :: rest => do
      let (items, rest) ← items? fuel rest
      some (item :: items, rest)
    | ']' :: rest => some ([item], rest)
    | _ => none

/-- One or more fields with commas between, up to the closing brace, and what follows it. -/
def fields? : Nat → List Char → Option (List (String × Json) × List Char)
  | 0, _ => none
  | fuel + 1, s =>
    match skipSpaces s with
    | '"' :: rest => do
      let (name, rest) ← stringBody (rest.length + 1) rest
      match skipSpaces rest with
      | ':' :: rest => do
        let (value, rest) ← value? fuel rest
        match skipSpaces rest with
        | ',' :: rest => do
          let (fields, rest) ← fields? fuel rest
          some ((String.ofList name, value) :: fields, rest)
        | '\x7d' :: rest => some ([(String.ofList name, value)], rest)
        | _ => none
      | _ => none
    | _ => none

end

/-- The value that a text holds and nothing else. -/
def parse? (text : String) : Option Json :=
  let s := text.toList
  match value? (s.length + 1) s with
  | some (value, rest) => if skipSpaces rest = [] then some value else none
  | none => none

end TabularView.Json
