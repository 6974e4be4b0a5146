import TabularView.Column.Name
import TabularView.Text.Blank
import TabularView.Text.Join

set_option autoImplicit false

/-! # Names taken from paths

An uploaded file is known by a path. Its file name is the last part between slashes, empty parts
and single dots aside; the stem is the file name without its extension, which starts at the last
dot unless that dot is the first character.

The table name and the default delimiter of a file follow from these. -/

namespace TabularView.PathName

/-! ## Parts of a path -/

/-- The parts of a path that lead somewhere. -/
def parts (path : String) : List (List Char) :=
  (Text.splitAt '/' path.toList).filter fun part => part ≠ [] ∧ part ≠ ['.']

/-- The file name at the end of a path; a path that ends by going up has none. -/
def fileNameChars? (path : String) : Option (List Char) :=
  match (parts path).getLast? with
  | some part => if part = ['.', '.'] then none else some part
  | none => none

/-- The file name at the end of a path. -/
def fileName? (path : String) : Option String :=
  (fileNameChars? path).map String.ofList

/-- A file name's stem, and its extension if it has one. -/
def splitExtension (name : List Char) : List Char × Option (List Char) :=
  match Text.splitLast? '.' name with
  | some (before, after) => if before = [] then (name, none) else (before, some after)
  | none => (name, none)

/-- The file name without its extension. -/
def stem? (path : String) : Option String :=
  (fileNameChars? path).map fun name => String.ofList (splitExtension name).1

/-- The extension of the file name. -/
def extension? (path : String) : Option String :=
  (fileNameChars? path).bind fun name => (splitExtension name).2.map String.ofList

/-! ## What files are called and how they are cut -/

/-- The table that a file belongs to unless told otherwise: its stem as a column name in small
letters, or `table` when nothing is left of it. -/
def tableName (path : String) : String :=
  let name := Text.lowerAscii (ColumnName.normalize (Text.trim ((stem? path).getD path)))
  if name = "" then "table" else name

/-- A comma. -/
def comma : UInt8 := 44

/-- A tab. -/
def tab : UInt8 := 9

/-- The delimiter of a file: the one asked for, else a tab for the extension `tsv` and a comma for
all others. -/
def delimiter (path : String) (provided : Option UInt8) : UInt8 :=
  match provided with
  | some d => d
  | none =>
    match extension? path with
    | some e => if Text.eqIgnoringCase e "tsv" then tab else comma
    | none => comma

end TabularView.PathName
