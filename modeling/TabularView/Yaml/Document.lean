import TabularView.Yaml.Node
import TabularView.Yaml.Token

set_option autoImplicit false

/-! # YAML documents

The nodes that tokens stand for. A text has one document at most, which may have directives and a
mark in front of it and marks behind it; a text with nothing in it counts as a node left out.

The functions below take tokens off the front as they go. Each call of the descent uses up one unit
of fuel, and between two calls that take no token there are few others, so that a multiple of the
number of tokens suffices. -/

namespace TabularView.Yaml

/-- What is known in the middle of a document: the tokens left, what handles of tags stand for, and
the anchors of the names that have been given. -/
structure Outline where
  tokens : List Token
  handles : List (String × String)
  anchors : List (String × Nat)

/-- A part of a descent through the tokens. -/
abbrev Descent := StateT Outline Option

namespace Descent

/-- The next token. -/
def peek : Descent (Option Token) := do
  return (← get).tokens.head?

/-- Takes a token. -/
def take : Descent Unit :=
  modify fun o => { o with tokens := o.tokens.tail }

/-- One of some tokens is next. -/
def isNext (tokens : List Token) : Descent Bool := do
  return (← peek).any tokens.contains

/-- Takes a token that has to be next. -/
def expect (t : Token) : Descent Unit := do
  if ← isNext [t] then take else failure

/-! ## Anchors and tags -/

/-- The anchor for a name that is given to a node: how many names there are. An earlier anchor of
the same name is not reached any more. -/
def giveName (name : String) : Descent Nat := do
  let o ← get
  let anchor := o.anchors.length
  set { o with anchors := (name, anchor) :: o.anchors.filter (·.1 != name) }
  return anchor

/-- The anchor that a name stands for. -/
def anchorOf (name : String) : Descent Nat := do
  match (← get).anchors.find? (·.1 == name) with
  | some (_, anchor) => return anchor
  | none => failure

/-- The handles that need no directive. -/
def plainHandles : List (String × String) :=
  [("!", "!"), ("!!", "tag:yaml.org,2002:")]

/-- A tag in full. -/
def fullTag (t : RawTag) : Descent String := do
  if t.handle = "" then return t.rest
  match ((← get).handles ++ plainHandles).find? (·.1 == t.handle) with
  | some (_, stands) => return stands ++ t.rest
  | none => failure

/-- The name in front of a node, if there is one. -/
def name? : Descent (Option String) := do
  match ← peek with
  | some (.anchor name) => take; return some name
  | _ => return none

/-- The tag in front of a node, if there is one. -/
def tag? : Descent (Option RawTag) := do
  match ← peek with
  | some (.tag written) => take; return some written
  | _ => return none

/-- The anchor and the tag in front of a node, which stand in either order. -/
def properties : Descent (Option Nat × Option String) := do
  let first ← name?
  let written ← tag?
  let name ← match first with
    | some name => pure (some name)
    | none => if written.isSome then name? else pure none
  let tag ← written.mapM fullTag
  let anchor ← name.mapM giveName
  return (anchor, tag)

/-! ## Nodes -/

/-- A node of which only the anchor or the tag is there. -/
def leftOut (anchor : Option Nat) (tag : Option String) : Descent Node :=
  if anchor.isSome || tag.isSome then return .scalar anchor { Scalar.empty with tag }
  else failure

mutual

/-- A node. Outside brackets it may be laid out by indentation, and as a part of a mapping it may be
a sequence whose items are in the column of the keys. -/
def node : Nat → Bool → Bool → Descent Node
  | 0, _, _ => failure
  | fuel + 1, block, indentless => do
    match ← peek with
    | some (.reference name) => take; return .reference (← anchorOf name)
    | _ => do
      let (anchor, tag) ← properties
      match ← peek with
      | some (.scalar text style) =>
        take
        return .scalar anchor { text, style, tag := tag.filter (· != "!") }
      | some .flowSequence => take; return .sequence anchor tag (← flowItems fuel true)
      | some .flowMapping => take; return .mapping anchor tag (← flowEntries fuel true)
      | some .blockSequence =>
        if block then take; return .sequence anchor tag (← blockItems fuel)
        else leftOut anchor tag
      | some .blockMapping =>
        if block then take; return .mapping anchor tag (← blockEntries fuel)
        else leftOut anchor tag
      | some .item =>
        if indentless then return .sequence anchor tag (← bareItems fuel)
        else leftOut anchor tag
      | _ => leftOut anchor tag

/-- A node, unless one of these tokens is next and it is left out. -/
def nodeUnless : Nat → List Token → Bool → Bool → Descent Node
  | 0, _, _, _ => failure
  | fuel + 1, tokens, block, indentless => do
    if ← isNext tokens then return .empty else node fuel block indentless

/-- The items up to the end of a sequence. -/
def blockItems : Nat → Descent (List Node)
  | 0 => failure
  | fuel + 1 => do
    match ← peek with
    | some .item =>
      take
      let item ← nodeUnless fuel [.item, .blockEnd] true false
      return item :: (← blockItems fuel)
    | some .blockEnd => take; return []
    | _ => failure

/-- The items of a sequence in the column of a mapping's keys. -/
def bareItems : Nat → Descent (List Node)
  | 0 => failure
  | fuel + 1 => do
    match ← peek with
    | some .item =>
      take
      let item ← nodeUnless fuel [.item, .key, .value, .blockEnd] true false
      return item :: (← bareItems fuel)
    | _ => return []

/-- The entries up to the end of a mapping. -/
def blockEntries : Nat → Descent (List (Node × Node))
  | 0 => failure
  | fuel + 1 => do
    match ← peek with
    | some .key =>
      take
      let key ← nodeUnless fuel [.key, .value, .blockEnd] true true
      let value ←
        if ← isNext [.value] then take; nodeUnless fuel [.key, .value, .blockEnd] true true
        else pure .empty
      return (key, value) :: (← blockEntries fuel)
    | some .blockEnd => take; return []
    | _ => failure

/-- The items up to the closing bracket, with commas between them. A key makes an item that is a
mapping with one entry. -/
def flowItems : Nat → Bool → Descent (List Node)
  | 0, _ => failure
  | fuel + 1, first => do
    if ← isNext [.flowSequenceEnd] then take; return []
    if !first then expect .comma
    match ← peek with
    | some .flowSequenceEnd => take; return []
    | some .key =>
      take
      let entry ← flowPair fuel
      return .mapping none none [entry] :: (← flowItems fuel false)
    | _ =>
      let item ← node fuel false false
      return item :: (← flowItems fuel false)

/-- The key and the value of an item. The token behind a key that was left out is not looked at. -/
def flowPair : Nat → Descent (Node × Node)
  | 0 => failure
  | fuel + 1 => do
    let key ←
      if ← isNext [.value, .comma, .flowSequenceEnd] then take; pure .empty
      else node fuel false false
    let value ←
      if ← isNext [.value] then take; nodeUnless fuel [.comma, .flowSequenceEnd] false false
      else pure .empty
    return (key, value)

/-- The entries up to the closing brace, with commas between them. Without a mark, what is there is
a key without a value. -/
def flowEntries : Nat → Bool → Descent (List (Node × Node))
  | 0, _ => failure
  | fuel + 1, first => do
    if ← isNext [.flowMappingEnd] then take; return []
    if !first then expect .comma
    match ← peek with
    | some .flowMappingEnd => take; return []
    | some .key =>
      take
      let key ← nodeUnless fuel [.value, .comma, .flowMappingEnd] false false
      let value ←
        if ← isNext [.value] then take; nodeUnless fuel [.comma, .flowMappingEnd] false false
        else pure .empty
      return (key, value) :: (← flowEntries fuel false)
    | _ =>
      let key ← node fuel false false
      return (key, .empty) :: (← flowEntries fuel false)

end

/-! ## Documents -/

/-- Takes the directives of a document: one version at most, which has to be known, and every handle
once. -/
def directives : Nat → Bool → Descent Unit
  | 0, _ => failure
  | fuel + 1, versioned => do
    match ← peek with
    | some (.directive (.version major minor)) =>
      if versioned || major != 1 || !(minor == 1 || minor == 2) then failure
      take
      directives fuel true
    | some (.directive (.handle name stands)) =>
      let o ← get
      if o.handles.any (·.1 == name) then failure
      set { o with tokens := o.tokens.tail, handles := (name, stands) :: o.handles }
      directives fuel versioned
    | _ => return ()

/-- Takes marks behind a document. -/
def endMarks : Descent Unit :=
  modify fun o => { o with tokens := o.tokens.dropWhile (· == .documentEnd) }

/-- The node that is the document, and nothing behind it. -/
def root (fuel : Nat) : Descent Node := do
  let content ← match ← peek with
    | none => pure .empty
    | some (.directive _) | some .documentStart => do
      directives fuel false
      expect .documentStart
      match ← peek with
      | none | some (.directive _) | some .documentStart | some .documentEnd => pure .empty
      | _ => node fuel true false
    | _ => node fuel true false
  endMarks
  if (← peek).isSome then failure
  return content

end Descent

/-- The document that tokens stand for. -/
def Node.ofTokens? (tokens : List Token) : Option Node :=
  let outline : Outline := { tokens, handles := [], anchors := [] }
  ((Descent.root (4 * tokens.length + 4)).run' outline)

/-- The document that a text holds. -/
def Node.ofText? (text : String) : Option Node :=
  (Token.ofText? text).bind Node.ofTokens?

end TabularView.Yaml
