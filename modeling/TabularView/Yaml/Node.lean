import TabularView.Yaml.Scalar

set_option autoImplicit false

/-! # YAML nodes

A document is a tree of scalars, sequences and mappings. A node may have an anchor, and a reference
stands for the node with an anchor; anchors are numbers here, as a name can be used again. -/

namespace TabularView.Yaml

/-- A scalar: its text, how it is written, and its tag if it has one. -/
structure Scalar where
  text : String
  style : Style
  tag : Option String
deriving DecidableEq, Repr

/-- Nothing is written as nothing. -/
def Scalar.empty : Scalar where
  text := ""
  style := .plain
  tag := none

/-- A part of a document. -/
inductive Node
  | scalar (anchor : Option Nat) (value : Scalar)
  | sequence (anchor : Option Nat) (tag : Option String) (items : List Node)
  | mapping (anchor : Option Nat) (tag : Option String) (entries : List (Node × Node))
  | reference (anchor : Nat)
deriving Inhabited

namespace Node

/-- A node that was left out. -/
def empty : Node :=
  .scalar none .empty

/-- The anchor of a node. -/
def anchor : Node → Option Nat
  | .scalar anchor _ => anchor
  | .sequence anchor _ _ => anchor
  | .mapping anchor _ _ => anchor
  | .reference _ => none

mutual

/-- A node and all inside it, in the order of their starts. -/
def parts : Node → List Node
  | .sequence anchor tag items => .sequence anchor tag items :: partsOfItems items
  | .mapping anchor tag entries => .mapping anchor tag entries :: partsOfEntries entries
  | n => [n]

/-- The items and all inside them. -/
def partsOfItems : List Node → List Node
  | [] => []
  | n :: rest => n.parts ++ partsOfItems rest

/-- The keys and values and all inside them. -/
def partsOfEntries : List (Node × Node) → List Node
  | [] => []
  | (key, value) :: rest => key.parts ++ value.parts ++ partsOfEntries rest

end

/-- The last part of a document with an anchor. -/
def anchored? (root : Node) (anchor : Nat) : Option Node :=
  (root.parts.filter fun n => n.anchor == some anchor).getLast?

end Node

end TabularView.Yaml
