import TabularView.Encoding.Decode

set_option autoImplicit false

/-! # Records of delimited text

A stream of bytes is cut into records and these into fields. Fields may be quoted, a quote inside
being written twice; a line feed, a carriage return or both together end a record; empty lines count
for nothing; records may differ in length. There are no errors in the text itself: a quote in the
middle of a field stands for itself, and the end of the stream closes whatever is open.

`transition` is the whole grammar, one byte at a time. -/

namespace TabularView

/-- Bytes that can be read, and the failure that takes the place of their end, if there is one. -/
structure ByteStream where
  bytes : Bytes
  failure : Option String := none
deriving DecidableEq, Repr

namespace Csv

/-- The fields of one line, still as bytes. -/
abbrev Record := List Bytes

/-! ## The grammar -/

/-- Where in a record the reader stands. -/
inductive Position
  | recordStart
  | fieldStart
  | inField
  | inQuotes
  | afterQuote
deriving DecidableEq, Repr

/-- What to do with a byte: pass over it, take it into the field, or end a field or a record at
it. -/
inductive Move
  | skip (next : Position)
  | keep (next : Position)
  | endField
  | endRecord
deriving DecidableEq, Repr

/-- A double quote. -/
def quote : UInt8 := 34

/-- A byte that ends a line. -/
def isLineEnd (b : UInt8) : Bool :=
  b == 10 || b == 13

/-- The move at a byte that is not quoted. -/
def bareMove (delimiter b : UInt8) : Move :=
  if b = delimiter then .endField else if isLineEnd b then .endRecord else .keep .inField

/-- The move at the first byte of a field. -/
def fieldStartMove (delimiter b : UInt8) : Move :=
  if b = quote then .skip .inQuotes else bareMove delimiter b

/-- The move at a byte, from where the reader stands. -/
def transition (delimiter : UInt8) : Position → UInt8 → Move
  | .recordStart, b => if isLineEnd b then .skip .recordStart else fieldStartMove delimiter b
  | .fieldStart, b => fieldStartMove delimiter b
  | .inField, b => bareMove delimiter b
  | .inQuotes, b => if b = quote then .skip .afterQuote else .keep .inQuotes
  | .afterQuote, b => if b = quote then .keep .inQuotes else bareMove delimiter b

/-! ## Reading -/

/-- The records that end before the stream does, and the one left open at its end. `fields` and
`field` hold what has been read of the present record, last things first. -/
def scanFrom (delimiter : UInt8) :
    Position → List Bytes → Bytes → Bytes → List Record × Option Record
  | position, fields, field, [] =>
    ([], if position = .recordStart then none else some (field.reverse :: fields).reverse)
  | position, fields, field, b :: rest =>
    match transition delimiter position b with
    | .skip next => scanFrom delimiter next fields field rest
    | .keep next => scanFrom delimiter next fields (b :: field) rest
    | .endField => scanFrom delimiter .fieldStart (field.reverse :: fields) [] rest
    | .endRecord =>
      let (records, last) := scanFrom delimiter .recordStart [] [] rest
      ((field.reverse :: fields).reverse :: records, last)

/-- The records that end before the stream does, and the one left open at its end. -/
def scan (delimiter : UInt8) (bytes : Bytes) : List Record × Option Record :=
  scanFrom delimiter .recordStart [] [] bytes

/-- The bytes after a UTF-8 byte order mark, if they start with one. -/
def afterMark? : Bytes → Option Bytes
  | 0xEF :: 0xBB :: 0xBF :: rest => some rest
  | _ => none

/-- Complete records, and the failure met after them. -/
structure Reading where
  records : List Record
  failure : Option String
deriving DecidableEq, Repr

/-- All records of a stream. A byte order mark at its start is passed over; a stream of the mark
alone counts as ended there. Where the stream fails, the record left open is lost. -/
def read (delimiter : UInt8) (stream : ByteStream) : Reading :=
  let (bytes, failure) :=
    match afterMark? stream.bytes with
    | some [] => ([], none)
    | some rest => (rest, stream.failure)
    | none => (stream.bytes, stream.failure)
  let (records, last) := scan delimiter bytes
  match failure with
  | none => { records := records ++ last.toList, failure := none }
  | some text => { records, failure := some text }

/-- No record is without fields. -/
theorem ne_nil_of_mem_scanFrom (delimiter : UInt8) (bytes : Bytes) :
    ∀ position fields field, ∀ r ∈ (scanFrom delimiter position fields field bytes).1, r ≠ [] := by
  induction bytes with
  | nil => intro position fields field r h; simp [scanFrom] at h
  | cons b rest ih =>
    intro position fields field r h
    rw [scanFrom] at h
    split at h
    · exact ih _ _ _ r h
    · exact ih _ _ _ r h
    · exact ih _ _ _ r h
    · simp only [List.mem_cons] at h
      rcases h with h | h
      · simp [h]
      · exact ih _ _ _ r h

end Csv

end TabularView
