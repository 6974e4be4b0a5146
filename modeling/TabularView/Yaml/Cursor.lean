set_option autoImplicit false

/-! # Places in a YAML text

What a character means depends on the line and the column it stands in, and a key on how long it is.
A `Cursor` is the rest of a text together with the `Place` that it starts at. -/

namespace TabularView.Yaml

/-! ## Characters -/

/-- Line breaks. -/
def isBreak (c : Char) : Bool :=
  c = '\n' || c = '\u2028' || c = '\u2029'

/-- Blanks inside a line. -/
def isGap (c : Char) : Bool :=
  c = ' ' || c = '\t'

/-- Nothing, a blank or a line break comes next. -/
def endsToken : List Char → Bool
  | [] => true
  | c :: _ => isGap c || isBreak c

/-- Characters that structure collections between brackets. -/
def isFlowIndicator (c : Char) : Bool :=
  [',', '[', ']', '\x7b', '\x7d'].contains c

/-- Characters of names: ASCII letters, digits, the underscore and the hyphen. -/
def isNameChar (c : Char) : Bool :=
  c.isAlphanum || c = '_' || c = '-'

/-- Three of a character, standing alone. -/
def startsTriple (d : Char) : List Char → Bool
  | a :: b :: c :: rest => a = d && b = d && c = d && endsToken rest
  | _ => false

/-- A mark between documents, if it starts a line. -/
def startsMark (s : List Char) : Bool :=
  startsTriple '-' s || startsTriple '.' s

/-- Characters that may stand in a text. -/
def isAllowed (c : Char) : Bool :=
  let n := c.toNat
  n == 0x09 || n == 0x0A || n == 0x0D || (0x20 ≤ n && n ≤ 0x7E) || n == 0x85 ||
    (0xA0 ≤ n && n ≤ 0xFFFD) || 0x10000 ≤ n

/-- The text with a line feed for each of the other usual spellings of a line break. -/
def unifyBreaks : List Char → List Char
  | [] => []
  | '\r' :: '\n' :: rest => '\n' :: unifyBreaks rest
  | c :: rest => (if c = '\r' ∨ c = '\u0085' then '\n' else c) :: unifyBreaks rest

/-! ## Places -/

/-- Where a character stands: lines and columns are counted in characters from zero, the offset in
octets. -/
structure Place where
  line : Nat
  column : Nat
  offset : Nat
deriving DecidableEq, Repr

/-- The place behind a character. -/
def Place.after (p : Place) (c : Char) : Place :=
  if isBreak c then { line := p.line + 1, column := 0, offset := p.offset + c.utf8Size }
  else { line := p.line, column := p.column + 1, offset := p.offset + c.utf8Size }

/-- The rest of a text and where it starts. -/
structure Cursor where
  place : Place
  rest : List Char

namespace Cursor

/-- The start of a text. -/
def start (s : List Char) : Cursor :=
  { place := { line := 0, column := 0, offset := 0 }, rest := s }

/-- After some more characters. -/
def skip (n : Nat) (c : Cursor) : Cursor :=
  { place := (c.rest.take n).foldl Place.after c.place, rest := c.rest.drop n }

/-- The characters that come next and satisfy a test, and what follows them. -/
def span (f : Char → Bool) (c : Cursor) : List Char × Cursor :=
  let taken := c.rest.takeWhile f
  (taken, c.skip taken.length)

/-- After the characters that come next and satisfy a test. -/
def skipWhile (f : Char → Bool) (c : Cursor) : Cursor :=
  (c.span f).2

/-- After one character, if it is the next. -/
def skipChar? (d : Char) (c : Cursor) : Option Cursor :=
  if c.rest.head? = some d then some (c.skip 1) else none

/-- The next line, if nothing but blanks and a comment is left of this one. -/
def endLine? (c : Cursor) : Option Cursor :=
  let c := c.skipWhile isGap
  let c := if c.rest.head? = some '#' then c.skipWhile (!isBreak ·) else c
  match c.rest with
  | [] => some c
  | d :: _ => if isBreak d then some (c.skip 1) else none

end Cursor

end TabularView.Yaml
