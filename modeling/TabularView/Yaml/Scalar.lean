import TabularView.Text.Digit
import TabularView.Yaml.Cursor

set_option autoImplicit false

/-! # YAML scalars on the line

A scalar is written plainly, between single quotes or between double quotes, and may run over lines.
A line break inside a scalar stands for a blank; of several breaks in a row all but the first are
kept. Blanks next to a line break do not matter.

`Pending` is what has been passed but not yet decided on: it becomes part of the scalar only if more
of the scalar follows. -/

namespace TabularView.Yaml

/-- How a scalar is written. -/
inductive Style
  | plain
  | quoted
  | literal
  | folded
deriving DecidableEq, Repr

/-! ## Folding -/

/-- Blanks and line breaks inside a scalar. After a line break, the first break is kept apart; it is
missing when it was escaped. Characters are held in reverse. -/
inductive Pending
  | blanks (held : List Char)
  | lines (first : Option Char) (held : List Char)

namespace Pending

/-- Nothing is pending. -/
def none : Pending :=
  .blanks []

/-- A line break has been passed. -/
def isBroken : Pending → Bool
  | .blanks _ => false
  | .lines _ _ => true

/-- Anything has been passed. -/
def isAny : Pending → Bool
  | .blanks held => !held.isEmpty
  | .lines _ _ => true

/-- After one more line break. -/
def addBreak (c : Char) : Pending → Pending
  | .blanks _ => .lines (some c) []
  | .lines first held => .lines first (c :: held)

/-- After one more blank. -/
def addBlank (c : Char) : Pending → Pending
  | .blanks held => .blanks (c :: held)
  | p => p

/-- What it stands for inside the scalar. -/
def fold : Pending → List Char
  | .blanks held => held.reverse
  | .lines (some '\n') [] => [' ']
  | .lines (some '\n') held => held.reverse
  | .lines (some c) held => c :: held.reverse
  | .lines Option.none held => held.reverse

end Pending

/-! ## Plain scalars -/

/-- What a character does inside a plain scalar. -/
inductive PlainMove
  | take
  | stop
  | fault

/-- A colon before a blank ends the scalar, as structure between brackets does there. -/
def plainMove (flow : Bool) (c : Char) (rest : List Char) : PlainMove :=
  if c = ':' then
    if flow && (rest.head?.any fun d => isFlowIndicator d || d = '?') then .fault
    else if endsToken rest then .stop
    else .take
  else if flow && isFlowIndicator c then .stop
  else .take

/-- A plain scalar: its text, whether it ends on a line before, and the text from the next token or
line on. -/
structure PlainScalar where
  text : List Char
  broken : Bool
  after : Cursor

/-- The rest of a plain scalar. Blanks behind it belong to it, and so do further lines, even if they
are empty. Outside brackets a line with more of the scalar has to reach column `least`, and nowhere
may a tab stand before that column. -/
def plainFrom (flow : Bool) (least : Nat) : Pending → Place → List Char → Option PlainScalar
  | pending, p, [] =>
    some { text := [], broken := pending.isBroken, after := { place := p, rest := [] } }
  | pending, p, c :: rest =>
    if isBreak c then plainFrom flow least (pending.addBreak c) (p.after c) rest
    else if isGap c then
      if c = '\t' && pending.isBroken && p.column < least then none
      else plainFrom flow least (pending.addBlank c) (p.after c) rest
    else
      let stopped : PlainScalar :=
        { text := [], broken := pending.isBroken, after := { place := p, rest := c :: rest } }
      if (pending.isBroken && !flow && p.column < least) || (c = '#' && pending.isAny) ||
          (p.column = 0 && startsMark (c :: rest)) then
        some stopped
      else
        match plainMove flow c rest with
        | .stop => some stopped
        | .fault => none
        | .take => (plainFrom flow least .none (p.after c) rest).map fun more =>
          { more with text := pending.fold ++ c :: more.text }

/-- A plain scalar may start here. -/
def startsPlain (flow : Bool) (c : Char) (rest : List Char) : Bool :=
  if c = '-' then !endsToken rest
  else if c = '?' ∨ c = ':' then !flow && !endsToken rest
  else !(isGap c || isBreak c || isFlowIndicator c ||
    ['#', '&', '*', '!', '|', '>', '\x27', '"', '%', '@', '\x60'].contains c)

/-- A plain scalar. -/
def plain? (flow : Bool) (least : Nat) (c : Cursor) : Option PlainScalar :=
  match c.rest with
  | [] => none
  | d :: rest =>
    if startsPlain flow d rest then plainFrom flow least .none c.place (d :: rest) else none

/-! ## Quoted scalars -/

/-- The rest of a scalar between single quotes, in which a quote is written twice, and what follows
it. No mark between documents may stand inside. -/
def singleFrom : Pending → Place → List Char → Option (List Char × Cursor)
  | _, _, [] => none
  | pending, p, '\x27' :: '\x27' :: rest => do
    let (text, after) ← singleFrom .none ((p.after '\x27').after '\x27') rest
    some (pending.fold ++ '\x27' :: text, after)
  | pending, p, c :: rest =>
    if p.column = 0 && startsMark (c :: rest) then none
    else if c = '\x27' then some (pending.fold, { place := p.after c, rest })
    else if isBreak c then singleFrom (pending.addBreak c) (p.after c) rest
    else if isGap c then singleFrom (pending.addBlank c) (p.after c) rest
    else do
      let (text, after) ← singleFrom .none (p.after c) rest
      some (pending.fold ++ c :: text, after)

/-- The characters that escapes of one letter stand for. -/
def letterEscapes : List (Char × Char) :=
  [('0', '\x00'), ('a', '\x07'), ('b', '\x08'), ('t', '\t'), ('\t', '\t'), ('n', '\n'),
    ('v', '\x0b'), ('f', '\x0c'), ('r', '\r'), ('e', '\x1b'), (' ', ' '), ('"', '"'), ('/', '/'),
    ('\\', '\\'), ('N', '\u0085'), ('_', '\u00a0'), ('L', '\u2028'), ('P', '\u2029')]

/-- How many digits follow the letter of an escape by number. -/
def numberEscapes : List (Char × Nat) :=
  [('x', 2), ('u', 4), ('U', 8)]

/-- The character with a number, if there is one. -/
def charOf? (n : Nat) : Option Char :=
  if n.isValidChar then some (Char.ofNat n) else none

/-- The character that an escape stands for, and how many characters write it. -/
def escape? : List Char → Option (Char × Nat)
  | [] => none
  | c :: rest =>
    match letterEscapes.find? (·.1 == c), numberEscapes.find? (·.1 == c) with
    | some (_, d), _ => some (d, 1)
    | none, some (_, n) =>
      if n ≤ rest.length then
        ((Text.readBase? 16 (rest.take n)).bind charOf?).map fun d => (d, n + 1)
      else none
    | none, none => none

/-- The rest of a scalar between double quotes, and what follows it. An escaped line break stands
for nothing; no mark between documents may stand inside. -/
def doubleFrom : Nat → Pending → Cursor → Option (List Char × Cursor)
  | 0, _, _ => none
  | fuel + 1, pending, s =>
    match s.rest with
    | [] => none
    | c :: rest =>
      if s.place.column = 0 && startsMark (c :: rest) then none
      else if c = '"' then some (pending.fold, s.skip 1)
      else if isBreak c then doubleFrom fuel (pending.addBreak c) (s.skip 1)
      else if isGap c then doubleFrom fuel (pending.addBlank c) (s.skip 1)
      else if c = '\\' && (rest.head?.any isBreak) then do
        let (text, after) ← doubleFrom fuel (.lines none []) (s.skip 2)
        some (pending.fold ++ text, after)
      else do
        let (d, n) ← if c = '\\' then (escape? rest).map fun (d, n) => (d, n + 1) else some (c, 1)
        let (text, after) ← doubleFrom fuel .none (s.skip n)
        some (pending.fold ++ d :: text, after)

/-- A quoted scalar and what follows it. -/
def quoted? (s : Cursor) : Option (String × Cursor) :=
  let body := s.skip 1
  let scanned :=
    match s.rest.head? with
    | some '"' => doubleFrom (body.rest.length + 1) .none body
    | some '\x27' => singleFrom .none body.place body.rest
    | _ => none
  scanned.map fun (text, after) => (String.ofList text, after)

end TabularView.Yaml
