import TabularView.Config
import TabularView.Json.Fields

set_option autoImplicit false

/-! # Settings as JSON

Every setting may be missing and then has its default; only the delimiter may be null. -/

namespace TabularView.Config

/-- The names of the settings in order. -/
def settingNames : List String :=
  ["delimiter", "encoding", "join_kind", "select_join_columns", "bucket", "default_aggregate"]

/-- Settings. -/
def toJson (c : Config) : Json :=
  .object [
    ("delimiter", .ofOption Json.string c.delimiter),
    ("encoding", .string c.encoding),
    ("join_kind", .string c.joinKind.name),
    ("select_join_columns", .bool c.selectJoinColumns),
    ("bucket", .string c.bucket),
    ("default_aggregate", .string c.defaultAggregate.name)]

/-- Settings. -/
def ofJson? (j : Json) : Option Config := do
  let plain : Config := {}
  let fields ← j.record? settingNames settingNames.length
  let delimiter ← Json.option? "delimiter" Json.text? fields
  let encoding ← Json.fieldOr? "encoding" Json.text? plain.encoding fields
  let joinKind ← Json.fieldOr? "join_kind" (Json.choice? JoinKind.ofName?) plain.joinKind fields
  let selectJoinColumns ←
    Json.fieldOr? "select_join_columns" Json.flag? plain.selectJoinColumns fields
  let bucket ← Json.fieldOr? "bucket" Json.text? plain.bucket fields
  let defaultAggregate ←
    Json.fieldOr? "default_aggregate" (Json.choice? Aggregate.ofName?) plain.defaultAggregate fields
  some { delimiter, encoding, joinKind, selectJoinColumns, bucket, defaultAggregate }

end TabularView.Config
