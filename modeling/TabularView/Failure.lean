import TabularView.Field.Type
import TabularView.Text.Join

set_option autoImplicit false

/-! # What can go wrong

A failure is a cause: which value, table, file or setting is at fault and why. Its kind, whether it
ends a batch, and its wording are functions of the cause, each in one place.

`Failure.isBatchFatal_iff` lists the causes that end a batch: a table set that cannot be joined, and
everything unexpected. All others are recorded, and the batch goes on. -/

namespace TabularView

/-! ## Kinds -/

/-- The kind of a failure, as results record it. -/
inductive ErrorKind
  | invalidFieldValue
  | tableAlreadyExists
  | fileAlreadyExists
  | tableDoesNotExist
  | invalidTableSet
  | unexpectedError
deriving DecidableEq, Repr

namespace ErrorKind

/-- All kinds. -/
def all : List ErrorKind :=
  [invalidFieldValue, tableAlreadyExists, fileAlreadyExists, tableDoesNotExist, invalidTableSet,
    unexpectedError]

/-- The name of a kind in results. -/
def name : ErrorKind → String
  | .invalidFieldValue => "INVALID_FIELD_VALUE"
  | .tableAlreadyExists => "TABLE_ALREADY_EXISTS"
  | .fileAlreadyExists => "FILE_ALREADY_EXISTS"
  | .tableDoesNotExist => "TABLE_DOES_NOT_EXIST"
  | .invalidTableSet => "INVALID_TABLE_SET"
  | .unexpectedError => "UNEXPECTED_ERROR"

/-- The kind with a name. -/
def ofName? (name : String) : Option ErrorKind :=
  all.find? (·.name == name)

/-- Kinds that end a batch; a failure of another kind is recorded and its file skipped. -/
def isBatchFatal : ErrorKind → Bool
  | .invalidTableSet => true
  | .unexpectedError => true
  | _ => false

theorem ofName?_name (k : ErrorKind) : ofName? k.name = some k := by
  cases k <;> rfl

end ErrorKind

/-! ## Causes -/

/-- Why a value, a column or a filter was refused. -/
inductive ValueFault
  | notADate (value : String)
  | notANumber (value : String)
  | outOfRange (value : String)
  | unknownFieldType (value : String)
  | columnCount (file : String) (found : Nat) (table : String) (expected : Nat)
  | columnName (expected : String)
  | columnType (appended current : FieldType)
  | filterKind (kind : String) (type : FieldType)
  | filterNotFinite (value : String)
  | filterNotADate (text : String)
  | notInView (axis view : String)
  | aggregateNeedsNumber (aggregate column : String) (type : FieldType)
  | logarithmNeedsNumber (column : String) (type : FieldType)
  | other (text : String)
deriving DecidableEq, Repr

/-- Why a set of tables cannot become a view. -/
inductive TableSetFault
  | noTableInBatch
  | noTableForView
  | noTableRemains
  | repeatedTable (table : String)
  | detached (tables : List String) (first : String)
  | unjoinable (tables : List String) (first : String)
  | other (text : String)
deriving DecidableEq, Repr

/-- An operation asked for before what it needs was there. -/
inductive Misuse
  | notSorted
  | noView
  | failedBatch
  | noViewName
  | other (text : String)
deriving DecidableEq, Repr

/-- Everything that should not happen. -/
inductive Surprise
  | unknownEncoding (label : String)
  | undecodableHeader (position : Nat) (encoding : String)
  | noHeader (file : String)
  | noFileName (path : String)
  | badSegment (role value : String)
  | unrecognisedKey (key : String)
  | emptyProjection (view : String)
  | cancelled (stage : String)
  | other (text : String)
deriving DecidableEq, Repr

/-- A failure of the library. -/
inductive Failure
  | misuse (cause : Misuse)
  | invalidValue (column : String) (fault : ValueFault)
  | tableExists (table : String)
  | fileExists (file : String)
  | noSuchTable (table : String)
  | tableSet (fault : TableSetFault)
  | unexpected (cause : Surprise)
  | inputOutput (text : String)
  | stream (text : String)
deriving DecidableEq, Repr

/-! ## Wording -/

/-- What is wrong with a value. -/
def ValueFault.text : ValueFault → String
  | .notADate value => "'" ++ value ++ "' is not a valid date"
  | .notANumber value => "'" ++ value ++ "' is not a number"
  | .outOfRange value => "'" ++ value ++ "' is outside the representable number range"
  | .unknownFieldType value => "Unknown field type '" ++ value ++ "'"
  | .columnCount file found table expected =>
    "'" ++ file ++ "' has " ++ toString found ++ " column(s) but table '" ++ table ++ "' has " ++
      toString expected
  | .columnName expected => "expected column '" ++ expected ++ "' at this position"
  | .columnType appended current =>
    "appended values are " ++ appended.name ++ " but the table column is " ++ current.name
  | .filterKind kind type =>
    kind ++ " filter value does not match the column's " ++ type.name ++ " type"
  | .filterNotFinite value => "filter value " ++ value ++ " is not a finite number"
  | .filterNotADate text => "filter value '" ++ text ++ "' is not a valid date"
  | .notInView axis view => axis ++ " axis column is not part of view '" ++ view ++ "'"
  | .aggregateNeedsNumber aggregate column type =>
    aggregate ++ " needs a NUMBER column but '" ++ column ++ "' is " ++ type.name
  | .logarithmNeedsNumber column type =>
    "logarithmic interpolation needs a NUMBER column but '" ++ column ++ "' is " ++ type.name
  | .other text => text

/-- What is wrong with a table set. -/
def TableSetFault.text : TableSetFault → String
  | .noTableInBatch => "the batch does not contain any table"
  | .noTableForView => "a view needs at least one table"
  | .noTableRemains => "no table remains after applying the batch"
  | .repeatedTable table => "table '" ++ table ++ "' appears more than once"
  | .detached tables first =>
    "table(s) " ++ Text.quotedList tables ++ " share no join column with '" ++ first ++ "'"
  | .unjoinable tables first =>
    "table(s) " ++ Text.quotedList tables ++ " cannot be joined to '" ++ first ++ "'"
  | .other text => text

/-- What an operation is missing. -/
def Misuse.text : Misuse → String
  | .notSorted => "tables have not been sorted yet"
  | .noView => "no view has been defined yet"
  | .failedBatch => "a failed batch has no view"
  | .noViewName => "the batch result carries no view name"
  | .other text => text

/-- What happened unexpectedly. -/
def Surprise.text : Surprise → String
  | .unknownEncoding label => "Unknown encoding '" ++ label ++ "'"
  | .undecodableHeader position encoding =>
    "Header " ++ toString position ++ " is not valid " ++ encoding ++ " text"
  | .noHeader file => "File '" ++ file ++ "' does not contain a header row"
  | .noFileName path => "'" ++ path ++ "' has no usable file name"
  | .badSegment role value => "Invalid " ++ role ++ " path segment '" ++ value ++ "'"
  | .unrecognisedKey key => "'" ++ key ++ "' is not a recognised object key"
  | .emptyProjection view => "view '" ++ view ++ "' would not project any column"
  | .cancelled stage => "batch cancelled before " ++ stage
  | .other text => text

namespace Failure

/-- The kind that results record for a failure. -/
def kind : Failure → ErrorKind
  | .invalidValue _ _ => .invalidFieldValue
  | .tableExists _ => .tableAlreadyExists
  | .fileExists _ => .fileAlreadyExists
  | .noSuchTable _ => .tableDoesNotExist
  | .tableSet _ => .invalidTableSet
  | .misuse _ | .unexpected _ | .inputOutput _ | .stream _ => .unexpectedError

/-- The text of a failure. -/
def message : Failure → String
  | .misuse cause => "Invalid operation: " ++ cause.text
  | .invalidValue column fault => "Invalid value for '" ++ column ++ "': " ++ fault.text
  | .tableExists table => "Table '" ++ table ++ "' already exists"
  | .fileExists file => "File '" ++ file ++ "' already exists"
  | .noSuchTable table => "Table '" ++ table ++ "' does not exist"
  | .tableSet fault => "Invalid table set: " ++ fault.text
  | .unexpected cause => "Unexpected error: " ++ cause.text
  | .inputOutput text => "I/O error: " ++ text
  | .stream text => "CSV error: " ++ text

/-- Failures that end a batch. -/
def isBatchFatal (f : Failure) : Bool :=
  f.kind.isBatchFatal

/-- The column that a failure is about, if it is about one. -/
def column? : Failure → Option String
  | .invalidValue column _ => some column
  | _ => none

theorem isBatchFatal_iff (f : Failure) :
    f.isBatchFatal = true ↔
      (∃ fault, f = tableSet fault) ∨ (∃ cause, f = misuse cause) ∨
        (∃ cause, f = unexpected cause) ∨ (∃ text, f = inputOutput text) ∨
        ∃ text, f = stream text := by
  cases f <;> simp [isBatchFatal, kind, ErrorKind.isBatchFatal]

end Failure

end TabularView
