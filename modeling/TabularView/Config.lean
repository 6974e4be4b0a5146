import TabularView.Encoding.Label
import TabularView.Query.Compile
import TabularView.Text.Escaped
import TabularView.View.Clause

set_option autoImplicit false

/-! # Settings of a batch

Settings say how files are cut and decoded, how tables are joined, where data lies and how the third
axis is aggregated by default. They are checked before a batch starts: first the delimiter, then the
encoding, then the bucket. -/

namespace TabularView

/-! ## Delimiters -/

/-- Why a text is not a delimiter. -/
inductive DelimiterFault
  | empty
  | tooLong
  | unsuitable
deriving DecidableEq, Repr

/-- What is wrong with a delimiter. -/
def DelimiterFault.text : DelimiterFault → String
  | .empty => "Delimiter cannot be empty"
  | .tooLong => "Delimiter must be a single character"
  | .unsuitable => "Delimiter must be an ASCII character other than a quote or newline"

/-- The delimiters that have names. -/
def namedDelimiters : List (String × UInt8) :=
  [("tab", 9), ("comma", 44), ("pipe", 124), ("semicolon", 59)]

/-- The byte that a text names or is. -/
def readDelimiter (value : String) : Except DelimiterFault UInt8 :=
  match namedDelimiters.find? (·.1 == value) with
  | some (_, b) => .ok b
  | none =>
    match value.toList with
    | [] => .error .empty
    | [c] =>
      if c.toNat < 128 ∧ c ≠ '"' ∧ c ≠ '\n' ∧ c ≠ '\r' then .ok (UInt8.ofNat c.toNat)
      else .error .unsuitable
    | _ => .error .tooLong

/-! ## Settings -/

/-- The settings of a batch. Without a delimiter the files' extensions decide. -/
structure Config where
  delimiter : Option String := none
  encoding : String := "utf-8"
  joinKind : JoinKind := .left
  selectJoinColumns : Bool := false
  bucket : String := "glyph-data"
  defaultAggregate : Aggregate := .sum
deriving DecidableEq, Repr

/-- Why settings cannot be used. -/
inductive ConfigFault
  | delimiter (value : String) (fault : DelimiterFault)
  | encoding (value : String) (failure : Failure)
  | emptyBucket
deriving DecidableEq, Repr

/-- What is wrong with settings. -/
def ConfigFault.text : ConfigFault → String
  | .delimiter value fault => "Invalid delimiter Some(" ++ Text.shown value ++ "): " ++ fault.text
  | .encoding value failure => "Resolving encoding '" ++ value ++ "': " ++ failure.message
  | .emptyBucket => "bucket must not be empty"

namespace Config

/-- The byte that separates fields, if the settings say. -/
def delimiterByte (c : Config) : Except ConfigFault (Option UInt8) :=
  match c.delimiter with
  | none => .ok none
  | some value =>
    match readDelimiter value with
    | .ok b => .ok (some b)
    | .error fault => .error (.delimiter value fault)

/-- The encoding of the files. -/
def resolvedEncoding (c : Config) (foreign : ForeignDecoders := .shared) :
    Except ConfigFault Encoding :=
  match Encoding.resolve (some c.encoding) foreign with
  | .ok e => .ok e
  | .error failure => .error (.encoding c.encoding failure)

/-- Settings that a batch can start with. -/
def validate (c : Config) : Except ConfigFault Unit := do
  let _ ← c.delimiterByte
  let _ ← c.resolvedEncoding
  if Text.trim c.bucket = "" then .error .emptyBucket else .ok ()

end Config

end TabularView
