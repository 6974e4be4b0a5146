import TabularView.Failure
import TabularView.Text.Case

set_option autoImplicit false

/-! # Names in storage

Every workspace has models, every model has tables. Their names are lower-cased and put together:

* `workspace_model_table` names a table of the engine, `workspace_model_view` the view;
* `workspace/model/input/table/file` is where a file lands;
* `workspace/model/data/table/file.parquet` is where its columns are kept.

A name that becomes part of a key must be a proper segment, so that no key leaves its directory. -/

namespace TabularView

/-! ## Segments -/

/-- A name that can stand between two slashes of a key. -/
def isSegment (value : String) : Bool :=
  value ≠ "" && value ≠ "." && value ≠ ".." && !Text.hasChar '/' value

/-- The name itself if it can stand between two slashes. -/
def segment (role value : String) : Except Failure String :=
  if isSegment value then .ok value else .error (.unexpected (.badSegment role value))

theorem segment_eq_ok_iff (role value s : String) :
    segment role value = .ok s ↔ isSegment value = true ∧ s = value := by
  unfold segment
  split
  · rename_i h
    simp [h, eq_comm]
  · rename_i h
    simp [h]

/-! ## A model and its names -/

/-- A model of a workspace. -/
structure Model where
  workspace : String
  model : String
deriving DecidableEq, Repr

/-- The ending of the name of a columnar object. -/
def columnarEnding : String := ".parquet"

namespace Model

/-- What a table is called in the engine. -/
def tableName (m : Model) (table : String) : String :=
  Text.lowerAscii (m.workspace ++ "_" ++ m.model ++ "_" ++ table)

/-- What the view is called in the engine. -/
def viewName (m : Model) : String :=
  Text.lowerAscii (m.workspace ++ "_" ++ m.model ++ "_view")

/-- Where a file of a table lands. -/
def landingKey (m : Model) (table file : String) : Except Failure String := do
  let w ← segment "workspace" m.workspace
  let n ← segment "model" m.model
  let t ← segment "table" table
  let f ← segment "file" file
  .ok (Text.lowerAscii (w ++ "/" ++ n ++ "/input/" ++ t ++ "/" ++ f))

/-- The directory of a table's columnar objects. -/
def dataDirectory (m : Model) (table : String) : Except Failure String := do
  let w ← segment "workspace" m.workspace
  let n ← segment "model" m.model
  let t ← segment "table" table
  .ok (Text.lowerAscii (w ++ "/" ++ n ++ "/data/" ++ t ++ "/"))

/-- Where the columns of a file of a table are kept. -/
def columnarKey (m : Model) (table file : String) : Except Failure String := do
  let directory ← m.dataDirectory table
  let f ← segment "file" file
  .ok (directory ++ Text.lowerAscii f ++ columnarEnding)

end Model

end TabularView
