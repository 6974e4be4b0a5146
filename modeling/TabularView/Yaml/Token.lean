import TabularView.Yaml.BlockScalar
import TabularView.Yaml.Tag

set_option autoImplicit false

/-! # YAML tokens

A text is cut into tokens before its structure is known. Collections that are laid out by
indentation get tokens for their start and end, which no character stands for.

Whether a scalar is a key shows only at the colon behind it. So what may be a key is remembered
until then, with the number of the token that it starts at: the colon puts a key token in front of
it, and the start of a mapping if it stands further to the right than the collection around it.

`Token.ofText?` gives the tokens of a text. -/

namespace TabularView.Yaml

/-- A token. -/
inductive Token
  | directive (content : Directive)
  | documentStart
  | documentEnd
  | blockSequence
  | blockMapping
  | blockEnd
  | flowSequence
  | flowSequenceEnd
  | flowMapping
  | flowMappingEnd
  | item
  | comma
  | key
  | value
  | reference (name : String)
  | anchor (name : String)
  | tag (written : RawTag)
  | scalar (text : String) (style : Style)
deriving DecidableEq, Repr

/-- What may turn out to be a key: where it starts, and the number of its first token. It is
required when nothing else can stand there. -/
structure PossibleKey where
  required : Bool
  number : Nat
  place : Place

/-- Tokens being cut. They are held last first.

`margin` is the first column behind the one that the innermost collection laid out by indentation
stands in, zero outside all, and `margins` has those of the collections around it. There is one
possible key for each level of brackets, `key` for the innermost. -/
structure Lexer where
  cursor : Cursor
  tokens : List Token
  count : Nat
  margin : Nat
  margins : List Nat
  keyAllowed : Bool
  key : Option PossibleKey
  outerKeys : List (Option PossibleKey)

namespace Lexer

/-- Before the first token. -/
def start (s : List Char) : Lexer where
  cursor := .start s
  tokens := []
  count := 0
  margin := 0
  margins := []
  keyAllowed := true
  key := none
  outerKeys := []

/-- Between brackets. -/
def inFlow (l : Lexer) : Bool :=
  !l.outerKeys.isEmpty

/-- The column that the next token starts in. -/
def column (l : Lexer) : Nat :=
  l.cursor.place.column

/-- With one more token. -/
def emit (t : Token) (l : Lexer) : Lexer :=
  { l with tokens := t :: l.tokens, count := l.count + 1 }

/-- With one more token in front of the one with a number. -/
def insert (number : Nat) (t : Token) (l : Lexer) : Lexer :=
  { l with tokens := l.tokens.insertIdx (l.count - number) t, count := l.count + 1 }

/-- With a token that the next characters write. -/
def emitHere (length : Nat) (t : Token) (l : Lexer) : Lexer :=
  { l.emit t with cursor := l.cursor.skip length }

/-! ## Possible keys -/

/-- What could be a key is none; that is a fault if it had to be one. -/
def dropKey? (l : Lexer) : Option Lexer :=
  if l.key.any (·.required) then none else some { l with key := none }

/-- A key is one only up to the end of its line, and not if it is too long. -/
def dropStaleKey? (l : Lexer) : Option Lexer :=
  let p := l.cursor.place
  if l.key.any fun k => k.place.line < p.line || k.place.offset + 1024 < p.offset then l.dropKey?
  else some l

/-- What comes next may be a key, if one is allowed here. -/
def saveKey? (l : Lexer) : Option Lexer :=
  if l.keyAllowed then
    l.dropKey?.map fun l =>
      { l with key := some {
          required := !l.inFlow && l.margin = l.column + 1
          number := l.count
          place := l.cursor.place } }
  else some l

/-! ## Collections laid out by indentation -/

/-- A collection starts in a column, unless it is the one that is open there. Its token comes last,
or in front of the one with a number. -/
def openBlock (column : Nat) (number : Option Nat) (t : Token) (l : Lexer) : Lexer :=
  if l.inFlow || column < l.margin then l
  else
    let l := { l with margin := column + 1, margins := l.margin :: l.margins }
    match number with
    | some n => l.insert n t
    | none => l.emit t

/-- How many collections there are behind a column, and the margins left without them. -/
def marginsBehind (column : Nat) : Nat → List Nat → Nat × Nat × List Nat
  | margin, [] => (0, margin, [])
  | margin, outer :: rest =>
    if column < margin then
      let (n, margins) := marginsBehind column outer rest
      (n + 1, margins)
    else (0, margin, outer :: rest)

/-- Ends the collections whose margin is behind a column. -/
def closeBlocks (column : Nat) (l : Lexer) : Lexer :=
  if l.inFlow then l
  else
    let (n, margin, margins) := marginsBehind column l.margin l.margins
    { l with
      tokens := List.replicate n Token.blockEnd ++ l.tokens
      count := l.count + n
      margin
      margins }

/-! ## Between tokens -/

/-- Passes blanks, line breaks, comments, and a byte order mark at the start of a line. A key may
start on a new line outside brackets; where one may start there, tabs are not passed. -/
def gapFrom (flow : Bool) : Bool → Bool → Place → List Char → Bool × Cursor
  | _, keyAllowed, p, [] => (keyAllowed, { place := p, rest := [] })
  | comment, keyAllowed, p, c :: rest =>
    if isBreak c then gapFrom flow false (keyAllowed || !flow) (p.after c) rest
    else if comment then gapFrom flow true keyAllowed (p.after c) rest
    else if c = ' ' || (c = '\t' && (flow || !keyAllowed)) || (c = '\ufeff' && p.column = 0) then
      gapFrom flow false keyAllowed (p.after c) rest
    else if c = '#' then gapFrom flow true keyAllowed (p.after c) rest
    else (keyAllowed, { place := p, rest := c :: rest })

/-- At the start of the next token. -/
def passGap (l : Lexer) : Lexer :=
  let (keyAllowed, cursor) := gapFrom l.inFlow false l.keyAllowed l.cursor.place l.cursor.rest
  { l with keyAllowed, cursor }

/-! ## Tokens -/

/-- A mark between documents, or a directive, ends all that was laid out by indentation. -/
def endDocument? (l : Lexer) : Option Lexer :=
  (l.closeBlocks 0).dropKey?.map fun l => { l with keyAllowed := false }

/-- A directive. -/
def directive? (l : Lexer) : Option Lexer := do
  let l ← l.endDocument?
  let (content, cursor) ← Yaml.directive? (l.cursor.skip 1)
  some { l.emit (.directive content) with cursor }

/-- An opening bracket, which may start a key. -/
def openFlow? (t : Token) (l : Lexer) : Option Lexer :=
  l.saveKey?.map fun l =>
    { l.emitHere 1 t with key := none, outerKeys := l.key :: l.outerKeys, keyAllowed := true }

/-- A closing bracket. -/
def closeFlow? (t : Token) (l : Lexer) : Option Lexer :=
  l.dropKey?.map fun l =>
    { l.emitHere 1 t with
      key := l.outerKeys.head?.getD none
      outerKeys := l.outerKeys.tail
      keyAllowed := false }

/-- A comma between brackets. -/
def comma? (l : Lexer) : Option Lexer :=
  l.dropKey?.map fun l => { l.emitHere 1 .comma with keyAllowed := true }

/-- A dash in front of an item; outside brackets it may have to start a sequence. -/
def item? (l : Lexer) : Option Lexer :=
  if !l.inFlow && !l.keyAllowed then none
  else
    (l.openBlock l.column none .blockSequence).dropKey?.map fun l =>
      { l.emitHere 1 .item with keyAllowed := true }

/-- A question mark in front of a key; outside brackets it may have to start a mapping. -/
def key? (l : Lexer) : Option Lexer :=
  if !l.inFlow && !l.keyAllowed then none
  else
    (l.openBlock l.column none .blockMapping).dropKey?.map fun l =>
      { l.emitHere 1 .key with keyAllowed := !l.inFlow }

/-- A colon, behind what was possibly a key or in front of a value whose key was marked. -/
def value? (l : Lexer) : Option Lexer :=
  match l.key with
  | some k =>
    let l := (l.insert k.number .key).openBlock k.place.column (some k.number) .blockMapping
    some { l.emitHere 1 .value with key := none, keyAllowed := false }
  | none =>
    if !l.inFlow && !l.keyAllowed then none
    else
      let l := l.openBlock l.column none .blockMapping
      some { l.emitHere 1 .value with keyAllowed := !l.inFlow }

/-- A token that is scanned by a function of its own and may start a key. -/
def scanned? {α : Type} (scan : Cursor → Option (α × Cursor)) (token : α → Token)
    (l : Lexer) : Option Lexer := do
  let l ← l.saveKey?
  let (a, cursor) ← scan l.cursor
  some { l.emit (token a) with cursor, keyAllowed := false }

/-- A scalar on lines of its own. -/
def blockScalar? (style : Style) (l : Lexer) : Option Lexer := do
  let l ← l.dropKey?
  let (text, cursor) ← Yaml.blockScalar? style l.margin (l.cursor.skip 1)
  some { l.emit (.scalar text style) with cursor, keyAllowed := true }

/-- A plain scalar. If it ends on a line before, a key may come next. -/
def plain? (l : Lexer) : Option Lexer := do
  let l ← l.saveKey?
  let s ← Yaml.plain? l.inFlow l.margin l.cursor
  some { l.emit (.scalar (String.ofList s.text) .plain) with
    cursor := s.after
    keyAllowed := s.broken }

/-- The token that starts with a character. -/
def token? (l : Lexer) (c : Char) (rest : List Char) : Option Lexer :=
  if l.column = 0 && c = '%' then l.directive?
  else if l.column = 0 && startsTriple '-' (c :: rest) then
    l.endDocument?.map (emitHere 3 .documentStart)
  else if l.column = 0 && startsTriple '.' (c :: rest) then
    l.endDocument?.map (emitHere 3 .documentEnd)
  else if c = '[' then l.openFlow? .flowSequence
  else if c = '\x7b' then l.openFlow? .flowMapping
  else if c = ']' then l.closeFlow? .flowSequenceEnd
  else if c = '\x7d' then l.closeFlow? .flowMappingEnd
  else if c = ',' then l.comma?
  else if c = '-' && endsToken rest then l.item?
  else if c = '?' && (l.inFlow || endsToken rest) then l.key?
  else if c = ':' && (l.inFlow || endsToken rest) then l.value?
  else if c = '*' then l.scanned? (fun s => name? (s.skip 1)) .reference
  else if c = '&' then l.scanned? (fun s => name? (s.skip 1)) .anchor
  else if c = '!' then l.scanned? (Yaml.tag? l.inFlow) .tag
  else if c = '|' && !l.inFlow then l.blockScalar? .literal
  else if c = '>' && !l.inFlow then l.blockScalar? .folded
  else if c = '"' || c = '\x27' then l.scanned? quoted? fun text => .scalar text .quoted
  else l.plain?

/-- All tokens. Each takes at least one character, so the fuel is used up only with the text. -/
def run? : Nat → Lexer → Option Lexer
  | 0, _ => none
  | fuel + 1, l => do
    let l ← l.passGap.dropStaleKey?
    let l := l.closeBlocks (l.column + 1)
    match l.cursor.rest with
    | [] => l.endDocument?
    | c :: rest => run? fuel (← l.token? c rest)

end Lexer

/-- The tokens of a text. -/
def Token.ofText? (text : String) : Option (List Token) :=
  let s := text.toList
  if s.all isAllowed then
    let s := unifyBreaks s
    ((Lexer.start s).run? (s.length + 1)).map (·.tokens.reverse)
  else none

end TabularView.Yaml
