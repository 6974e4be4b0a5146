import TabularView.Storage.Segment
import TabularView.Text.Digit

set_option autoImplicit false

/-! # Object keys

An object key is read back into what it was built from: workspace, model, area, table and file, and
for an archived object the time of archiving. `ObjectKey.parse` accepts the live layouts and
`workspace/model/archive/millis/area/table/file`; `ObjectKey.text` writes them.

Archiving an object replaces its time of archiving, if it had one, and lower-cases the key. -/

namespace TabularView

/-- Landing files and columnar objects are kept apart. -/
inductive StorageArea
  | input
  | data
deriving DecidableEq, Repr

/-- The directory of an area. -/
def StorageArea.directory : StorageArea → String
  | .input => "input"
  | .data => "data"

/-- What an object key says. -/
structure ObjectKey where
  workspace : String
  model : String
  area : StorageArea
  table : String
  file : String
  archivedAt : Option Int := none
deriving DecidableEq, Repr

namespace ObjectKey

/-! ## Writing -/

/-- The last part of the key. -/
def objectName (k : ObjectKey) : String :=
  match k.area with
  | .input => k.file
  | .data => k.file ++ columnarEnding

/-- The key itself. -/
def text (k : ObjectKey) : String :=
  k.workspace ++ "/" ++ k.model ++ "/" ++
    (match k.archivedAt with
      | some millis => "archive/" ++ toString millis ++ "/"
      | none => "") ++
    k.area.directory ++ "/" ++ k.table ++ "/" ++ k.objectName

/-! ## Reading -/

/-- The file of a columnar object: its name without the ending. -/
def dropEnding? (object : List Char) : Option (List Char) :=
  let ending := columnarEnding.toList
  if ending.isSuffixOf object then some (object.take (object.length - ending.length)) else none

/-- The area and the file that a directory and an object name stand for. -/
def areaAndFile? (directory object : List Char) : Option (StorageArea × List Char) :=
  if directory = "input".toList then some (.input, object)
  else if directory = "data".toList then (dropEnding? object).map fun file => (.data, file)
  else none

/-- The time of archiving, directory, table and object name of a key after its model. -/
def layout? : List (List Char) → Option (Option Int × List Char × List Char × List Char)
  | [directory, table, object] => some (none, directory, table, object)
  | [archive, millis, directory, table, object] =>
    if archive = "archive".toList then
      (Text.readInt64? millis).map fun m => (some m, directory, table, object)
    else none
  | _ => none

/-- The key as it is written, before its parts are checked. -/
def shape? (key : String) : Option ObjectKey :=
  match Text.splitAt '/' (key.toList.dropWhile (· == '/')) with
  | workspace :: model :: rest => do
    let (archivedAt, directory, table, object) ← layout? rest
    let (area, file) ← areaAndFile? directory object
    some {
      workspace := String.ofList workspace
      model := String.ofList model
      area := area
      table := String.ofList table
      file := String.ofList file
      archivedAt := archivedAt }
  | _ => none

/-- Reads a key; slashes in front of it do not matter. -/
def parse (key : String) : Except Failure ObjectKey :=
  match shape? key with
  | none => .error (.unexpected (.unrecognisedKey key))
  | some k => do
    let _ ← segment "workspace" k.workspace
    let _ ← segment "model" k.model
    let _ ← segment "table" k.table
    let _ ← segment "file" k.file
    .ok k

/-! ## Archiving -/

/-- The same object archived at a time. -/
def archived (k : ObjectKey) (millis : Int) : ObjectKey :=
  { k with archivedAt := some millis }

/-- Where the object under a key goes when it is archived. -/
def archiveKey (key : String) (millis : Int) : Except Failure String := do
  let k ← parse key
  .ok (Text.lowerAscii (k.archived millis).text)

end ObjectKey

end TabularView
