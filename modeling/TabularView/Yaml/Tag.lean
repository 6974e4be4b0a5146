import TabularView.Text.Digit
import TabularView.Yaml.Cursor

set_option autoImplicit false

/-! # Names, tags and directives in YAML

An anchor gives a node a name, and a reference stands for the node with a name. A tag says what a
node is: a handle between exclamation marks, which stands for the first part of the tag, and the
rest of it. A directive in front of a document says which version it is written in or what a handle
stands for. -/

namespace TabularView.Yaml

/-! ## Names -/

/-- The name behind the sign of an anchor or a reference, and what follows it. -/
def name? (c : Cursor) : Option (String × Cursor) :=
  let (name, after) := c.span isNameChar
  let closed := endsToken after.rest ||
    after.rest.head?.any (['?', ':', ',', ']', '\x7d', '%', '@', '\x60'].contains ·)
  if name ≠ [] ∧ closed then some (String.ofList name, after) else none

/-! ## Tags -/

/-- Characters of tags besides those of names; a percent sign starts an escape. -/
def isTagSign (c : Char) : Bool :=
  [';', '/', '?', ':', '@', '&', '=', '+', '$', '.', '!', '~', '*', '\x27', '(', ')'].contains c

/-- The octet that a percent sign and two hexadecimal digits stand for. -/
def octet? : List Char → Option Nat
  | '%' :: high :: low :: _ => Text.readBase? 16 [high, low]
  | _ => none

/-- How many octets write a character that starts with this one. -/
def octetsOf? (first : Nat) : Option Nat :=
  if first < 0x80 then some 1
  else if 0xC0 ≤ first ∧ first < 0xE0 then some 2
  else if 0xE0 ≤ first ∧ first < 0xF0 then some 3
  else if 0xF0 ≤ first ∧ first < 0xF8 then some 4
  else none

/-- The bits of this many further octets, after the bits there are. -/
def furtherOctets? : Nat → Nat → List Char → Option Nat
  | 0, bits, _ => some bits
  | n + 1, bits, s => do
    let octet ← octet? s
    if 0x80 ≤ octet ∧ octet < 0xC0 then furtherOctets? n (bits * 64 + octet % 64) (s.drop 3)
    else none

/-- The character that escaped octets stand for, and how many characters write it. -/
def tagEscape? (s : List Char) : Option (Char × Nat) := do
  let first ← octet? s
  let count ← octetsOf? first
  let lead := if count = 1 then first else first % (Nat.pow 2 (7 - count))
  let bits ← furtherOctets? (count - 1) lead (s.drop 3)
  some (Char.ofNat bits, 3 * count)

/-- The rest of a tag, and what follows it. With `lists` the signs of lists may stand in it. -/
def tagText? (lists : Bool) : Nat → Cursor → Option (List Char × Cursor)
  | 0, _ => none
  | fuel + 1, s =>
    match s.rest with
    | [] => some ([], s)
    | c :: _ =>
      if c = '%' then do
        let (d, n) ← tagEscape? s.rest
        let (text, after) ← tagText? lists fuel (s.skip n)
        some (d :: text, after)
      else if isNameChar c || isTagSign c || (lists && [',', '[', ']'].contains c) then do
        let (text, after) ← tagText? lists fuel (s.skip 1)
        some (c :: text, after)
      else some ([], s)

/-- The rest of a tag with enough fuel. -/
def tagRest? (lists : Bool) (s : Cursor) : Option (List Char × Cursor) :=
  tagText? lists (s.rest.length + 1) s

/-- A handle, as far as it goes: an exclamation mark, name characters, and the closing mark if it is
there. -/
def handle? (s : Cursor) : Option (List Char × Cursor) := do
  let body ← s.skipChar? '!'
  let (name, after) := body.span isNameChar
  match after.skipChar? '!' with
  | some closed => some ('!' :: (name ++ ['!']), closed)
  | none => some ('!' :: name, after)

/-- A handle that has its closing mark. -/
def isClosedHandle (handle : List Char) : Bool :=
  1 < handle.length && handle.getLast? = some '!'

/-- A tag as it is written: its handle, which is empty for a tag in full, and the rest. -/
structure RawTag where
  handle : String
  rest : String
deriving DecidableEq, Repr

/-- A tag in full, between angle brackets behind the exclamation mark. -/
def fullTag? (s : Cursor) : Option (RawTag × Cursor) := do
  let (text, after) ← tagRest? true (s.skip 2)
  let after ← after.skipChar? '>'
  if text = [] then none else some ({ handle := "", rest := String.ofList text }, after)

/-- A tag with a handle; an exclamation mark alone is a tag in full. -/
def shortTag? (s : Cursor) : Option (RawTag × Cursor) := do
  let (handle, after) ← handle? s
  let (text, after) ← tagRest? false after
  if isClosedHandle handle then
    if text = [] then none
    else some ({ handle := String.ofList handle, rest := String.ofList text }, after)
  else
    let text := handle.tail ++ text
    if text = [] then some ({ handle := "", rest := "!" }, after)
    else some ({ handle := "!", rest := String.ofList text }, after)

/-- A tag and what follows it: a blank or, between brackets, a comma. -/
def tag? (flow : Bool) (s : Cursor) : Option (RawTag × Cursor) := do
  let (tag, after) ← if s.rest.tail.head? = some '<' then fullTag? s else shortTag? s
  if endsToken after.rest || (flow && after.rest.head? = some ',') then some (tag, after) else none

/-! ## Directives -/

/-- What a directive says. -/
inductive Directive
  | version (major minor : Nat)
  | handle (name stands : String)
deriving DecidableEq, Repr

/-- A number of a version, and what follows it. -/
def versionPart? (s : Cursor) : Option (Nat × Cursor) := do
  let (digits, after) := s.span Text.isAsciiDigit
  let n ← Text.readNat? digits
  if digits.length ≤ 9 then some (n, after) else none

/-- What stands behind the name of a directive, and what follows it. -/
def directiveBody? (name : String) (s : Cursor) : Option (Directive × Cursor) :=
  if name = "YAML" then do
    let (major, after) ← versionPart? s
    let after ← after.skipChar? '.'
    let (minor, after) ← versionPart? after
    some (.version major minor, after)
  else if name = "TAG" then do
    let (handle, after) ← handle? s
    if !(handle = ['!'] || isClosedHandle handle) then none
    let gap := after.skipWhile isGap
    if gap.rest.length = after.rest.length then none
    let (text, after) ← tagRest? true gap
    if text = [] || !endsToken after.rest then none
    some (.handle (String.ofList handle) (String.ofList text), after)
  else none

/-- The directive behind a percent sign, and the next line. -/
def directive? (s : Cursor) : Option (Directive × Cursor) := do
  let (name, after) := s.span isNameChar
  if !endsToken after.rest then none
  let (directive, after) ← directiveBody? (String.ofList name) (after.skipWhile isGap)
  let after ← after.endLine?
  some (directive, after)

end TabularView.Yaml
