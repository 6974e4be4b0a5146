import TabularView.Number.Decimal
import TabularView.Yaml.Document

set_option autoImplicit false

/-! # Reading YAML values

A value is a node in its document, so that references can be followed. A scalar is a text; only when
it was written plainly can it stand for a null, a truth value or a number, and which of these it
stands for is decided where it is read: a text that is wanted as a text is one whatever it looks
like. A tag matters in few places: it can make a null, and where a choice is wanted a local tag is
the name of the choice. -/

namespace TabularView.Yaml

/-! ## Tags -/

namespace Tag

/-- The tag of nulls. -/
def null : String := "tag:yaml.org,2002:null"

/-- The tag of truth values. -/
def bool : String := "tag:yaml.org,2002:bool"

/-- The tag of whole numbers. -/
def int : String := "tag:yaml.org,2002:int"

/-- The tag of numbers. -/
def float : String := "tag:yaml.org,2002:float"

/-- The tag asks for something else than a text. -/
def isTyped (tag : String) : Bool :=
  [null, bool, int, float].contains tag

/-- The name in a local tag, which starts with an exclamation mark. -/
def localName? (tag : String) : Option String :=
  match tag.toList with
  | ['!'] => some "!"
  | '!' :: name => some (String.ofList name)
  | _ => none

end Tag

/-! ## Scalars -/

/-- The words for no value. -/
def isNullWord (text : String) : Bool :=
  ["~", "null", "Null", "NULL"].contains text

/-- The magnitude of a whole number: to base 16, 8 or 2 after a mark, else decimal and then without
needless zeros in front. -/
def readMagnitude? : List Char → Option Nat
  | '0' :: 'x' :: digits => Text.readBase? 16 digits
  | '0' :: 'o' :: digits => Text.readBase? 8 digits
  | '0' :: 'b' :: digits => Text.readBase? 2 digits
  | ['0'] => some 0
  | '0' :: _ => none
  | digits => Text.readNat? digits

/-- A whole number of 64 bits with a sign. -/
def readWhole? (s : List Char) : Option Int := do
  let (negative, magnitude) := Numeral.splitSign s
  let n ← readMagnitude? magnitude
  let value : Int := if negative then -n else n
  if isSigned64 value then some value else none

/-- A number: an infinity or the value that is no number, each after a point, or a finite one. -/
def readNumber? (s : List Char) : Option Binary64 :=
  let (negative, magnitude) := Numeral.splitSign s
  if [".inf", ".Inf", ".INF"].contains (String.ofList magnitude) then some (.infinite negative)
  else if [".nan", ".NaN", ".NAN"].contains (String.ofList s) then some .nan
  else (Binary64.ofText? s).filter (·.isFinite)

namespace Scalar

/-- The scalar may stand for something else than a text: it was written plainly, or on lines of its
own with a tag that says so. -/
def isOpenTo (tag : String) (s : Scalar) : Bool :=
  s.style = .plain || (s.style = .literal && s.tag = some tag)

/-- A truth value. -/
def flag? (s : Scalar) : Option Bool :=
  if !s.isOpenTo Tag.bool then none
  else if ["true", "True", "TRUE"].contains s.text then some true
  else if ["false", "False", "FALSE"].contains s.text then some false
  else none

/-- A whole number of 64 bits with a sign. -/
def whole? (s : Scalar) : Option Int :=
  if s.isOpenTo Tag.int then readWhole? s.text.toList else none

/-- A number. -/
def number? (s : Scalar) : Option Binary64 :=
  if s.isOpenTo Tag.float then readNumber? s.text.toList else none

/-- Nothing, or a word for no value, written plainly. -/
def isVoid (s : Scalar) : Bool :=
  s.style = .plain && (s.text = "" || isNullWord s.text)

/-- Whether the scalar stands for no value. With a tag only a word for it does, and the tag of nulls
does not fit anything else. -/
def isNull? (s : Scalar) : Option Bool :=
  match s.style, s.tag with
  | .plain, some tag =>
    if tag != Tag.null then some false
    else if isNullWord s.text then some true
    else none
  | _, _ => some s.isVoid

/-- The choice with a name, which is the text or the local tag of nothing. -/
def choice? {α : Type} (ofName? : String → Option α) (s : Scalar) : Option α :=
  match s.tag.bind Tag.localName? with
  | some name => if s.isVoid then ofName? name else none
  | none => ofName? s.text

/-- The text that names a variant. Local tags, and tags that ask for something else than a text, do
not fit. -/
def variantName? (s : Scalar) : Option String :=
  let fits := s.tag.all fun tag =>
    (Tag.localName? tag).isNone && !Tag.isTyped tag
  if fits then some s.text else none

end Scalar

/-! ## Values -/

/-- A node in its document. -/
structure Value where
  root : Node
  node : Node

namespace Value

/-- A node in a document, or the one that it refers to. -/
def follow (root : Node) : Node → Value
  | .reference anchor => { root, node := (root.anchored? anchor).getD .empty }
  | node => { root, node }

/-- Another node of the same document. -/
def within (v : Value) (node : Node) : Value :=
  follow v.root node

/-- The document in a text. -/
def ofText? (text : String) : Option Value :=
  (Node.ofText? text).map fun root => follow root root

/-- The scalar of a value. -/
def scalar? (v : Value) : Option Scalar :=
  match v.node with
  | .scalar _ s => some s
  | _ => none

/-- The text of a scalar. -/
def text? (v : Value) : Option String :=
  v.scalar?.map (·.text)

/-- A truth value. -/
def flag? (v : Value) : Option Bool :=
  v.scalar?.bind Scalar.flag?

/-- A whole number of 64 bits with a sign. -/
def whole? (v : Value) : Option Int :=
  v.scalar?.bind Scalar.whole?

/-- A number. -/
def number? (v : Value) : Option Binary64 :=
  v.scalar?.bind Scalar.number?

/-- The choice with a name. -/
def choice? {α : Type} (ofName? : String → Option α) (v : Value) : Option α :=
  v.scalar?.bind (Scalar.choice? ofName?)

/-- The text that names a variant without content. -/
def variantName? (v : Value) : Option String :=
  v.scalar?.bind Scalar.variantName?

/-- The name of a variant and its content: the only entry of a mapping without a local tag. -/
def variant? (v : Value) : Option (String × Value) :=
  match v.node with
  | .mapping _ tag [(key, content)] =>
    if (tag.bind Tag.localName?).isSome then none
    else (v.within key).text?.map fun name => (name, v.within content)
  | _ => none

/-- A value, or none for a scalar that stands for no value. -/
def nullable? {α : Type} (f : Value → Option α) (v : Value) : Option (Option α) := do
  let isNull ← match v.scalar? with
    | some s => s.isNull?
    | none => some false
  if isNull then some none else (f v).map some

/-! ## Records -/

/-- The entries of a mapping by name. Nothing counts as a mapping without entries. -/
def record? (v : Value) : Option (List (String × Value)) :=
  match v.node with
  | .mapping _ _ entries => entries.mapM fun (key, value) =>
      (v.within key).text?.map fun name => (name, v.within value)
  | .scalar _ s => if s.style = .plain ∧ s.text = "" then some [] else none
  | _ => none

/-- The values that entries of this name have, from first to last. -/
def valuesOf (name : String) (entries : List (String × Value)) : List Value :=
  (entries.filter (·.1 == name)).map (·.2)

/-- An entry that has to be there, once. -/
def entry? {α : Type} (name : String) (f : Value → Option α) (entries : List (String × Value)) :
    Option α :=
  match valuesOf name entries with
  | [v] => f v
  | _ => none

/-- An entry that has a default when it is missing, and is not there twice. -/
def entryOr? {α : Type} (name : String) (f : Value → Option α) (default : α)
    (entries : List (String × Value)) : Option α :=
  match valuesOf name entries with
  | [] => some default
  | [v] => f v
  | _ => none

end Value

end TabularView.Yaml
