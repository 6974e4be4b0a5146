import TabularView.Yaml.Scalar

set_option autoImplicit false

/-! # YAML scalars on lines of their own

After `|` or `>` a scalar takes the lines below as far as they are indented. Behind the sign may
stand how far that is, and what becomes of the line breaks at the end; without the first, the first
line that is not empty decides. After `>` a single line break between two lines that start with no
blank stands for a blank. -/

namespace TabularView.Yaml

/-- What becomes of the line breaks at the end of a scalar: all go, one stays, or all stay. -/
inductive Chomping
  | strip
  | clip
  | keep
deriving DecidableEq, Repr

/-- What stands behind the sign. -/
structure BlockHeader where
  chomping : Chomping
  indent : Option Nat

namespace BlockHeader

/-- What a character means for the line breaks at the end. -/
def chomping? : Option Char → Option Chomping
  | some '+' => some .keep
  | some '-' => some .strip
  | _ => none

/-- The digit that may come next, and what follows it; it is not zero. -/
def indent? (c : Cursor) : Option (Option Nat × Cursor) :=
  match c.rest.head?.bind Text.asciiDigit? with
  | some 0 => none
  | some n => some (some n, c.skip 1)
  | none => some (none, c)

/-- The header and what follows it; its two parts may stand in either order. -/
def ofCursor? (c : Cursor) : Option (BlockHeader × Cursor) :=
  match chomping? c.rest.head? with
  | some chomping => do
    let (indent, c) ← indent? (c.skip 1)
    some ({ chomping, indent }, c)
  | none => do
    let (indent, c) ← indent? c
    match indent, chomping? c.rest.head? with
    | some _, some chomping => some ({ chomping, indent }, c.skip 1)
    | _, _ => some ({ chomping := .clip, indent }, c)

end BlockHeader

/-- What stands between two lines that are not empty: the breaks of the empty lines, the widest
column that was reached, and the text from the next such line on. -/
structure LeadIn where
  breaks : List Char
  widest : Nat
  after : Cursor

/-- Passes empty lines, and the indentation of the next line up to a column; without that column all
blanks are indentation, and tabs are not. -/
def leadIn (indent : Option Nat) : Nat → Place → List Char → Option LeadIn
  | widest, p, [] =>
    some { breaks := [], widest := max widest p.column, after := { place := p, rest := [] } }
  | widest, p, c :: rest =>
    let inside := indent.all fun n => p.column < n
    if inside && c = ' ' then leadIn indent widest (p.after c) rest
    else if inside && c = '\t' then none
    else if isBreak c then
      (leadIn indent (max widest p.column) (p.after c) rest).map fun more =>
        { more with breaks := c :: more.breaks }
    else
      some {
        breaks := []
        widest := max widest p.column
        after := { place := p, rest := c :: rest } }

/-- What stands between two lines: the break at the end of the first, if there is one, the breaks of
empty lines, and whether the first starts with a blank. -/
structure BetweenLines where
  first : Option Char
  others : List Char
  afterBlank : Bool

/-- What it stands for inside the scalar, before a line that may start with a blank. -/
def BetweenLines.fold (style : Style) (beforeBlank : Bool) (b : BetweenLines) : List Char :=
  if style = .folded ∧ b.first = some '\n' ∧ !b.afterBlank ∧ !beforeBlank then
    if b.others = [] then [' '] else b.others
  else b.first.toList ++ b.others

/-- What it stands for at the end of the scalar. -/
def BetweenLines.chomp (chomping : Chomping) (b : BetweenLines) : List Char :=
  match chomping with
  | .strip => []
  | .clip => b.first.toList
  | .keep => b.first.toList ++ b.others

/-- The lines from one that starts in the column of the scalar on, and what follows them. -/
def blockLines (style : Style) (chomping : Chomping) (indent : Nat) :
    Nat → BetweenLines → Cursor → Option (List Char × Cursor)
  | 0, _, _ => none
  | fuel + 1, between, c =>
    match c.rest with
    | [] => some (between.chomp chomping, c)
    | d :: _ =>
      if c.place.column = indent then do
        let (line, c) := c.span (!isBreak ·)
        let next := c.skip 1
        let lead ← leadIn (some indent) 0 next.place next.rest
        let between' : BetweenLines :=
          { first := c.rest.head?, others := lead.breaks, afterBlank := isGap d }
        let (text, after) ← blockLines style chomping indent fuel between' lead.after
        some (between.fold style (isGap d) ++ line ++ text, after)
      else some (between.chomp chomping, c)

/-- The scalar behind a sign, and what follows it. Its lines have to reach column `margin` at
least. -/
def blockScalar? (style : Style) (margin : Nat) (c : Cursor) : Option (String × Cursor) := do
  let (header, c) ← BlockHeader.ofCursor? c
  let c ← c.endLine?
  let indent := header.indent.map fun n => margin - 1 + n
  let lead ← leadIn indent 0 c.place c.rest
  let column := indent.getD (max lead.widest (max margin 1))
  let between : BetweenLines := { first := none, others := lead.breaks, afterBlank := false }
  let (text, after) ←
    blockLines style header.chomping column (lead.after.rest.length + 1) between lead.after
  some (String.ofList text, after)

end TabularView.Yaml
