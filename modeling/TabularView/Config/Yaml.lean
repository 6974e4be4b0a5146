import TabularView.Config
import TabularView.Yaml.Printer
import TabularView.Yaml.Value

set_option autoImplicit false

/-! # Settings as YAML

Settings are kept in a file, one line for each. Every setting may be missing and then has its
default; a file without any has all defaults. -/

namespace TabularView.Config

/-- Settings in a document. -/
def ofValue? (v : Yaml.Value) : Option Config := do
  let plain : Config := {}
  let entries ← v.record?
  let delimiter ← Yaml.Value.entryOr? "delimiter" (Yaml.Value.nullable? Yaml.Value.text?)
    plain.delimiter entries
  let encoding ← Yaml.Value.entryOr? "encoding" Yaml.Value.text? plain.encoding entries
  let joinKind ← Yaml.Value.entryOr? "join_kind" (Yaml.Value.choice? JoinKind.ofName?)
    plain.joinKind entries
  let selectJoinColumns ← Yaml.Value.entryOr? "select_join_columns" Yaml.Value.flag?
    plain.selectJoinColumns entries
  let bucket ← Yaml.Value.entryOr? "bucket" Yaml.Value.text? plain.bucket entries
  let defaultAggregate ← Yaml.Value.entryOr? "default_aggregate"
    (Yaml.Value.choice? Aggregate.ofName?) plain.defaultAggregate entries
  some { delimiter, encoding, joinKind, selectJoinColumns, bucket, defaultAggregate }

/-- Settings in a text, not yet checked. -/
def ofYaml? (text : String) : Option Config :=
  (Yaml.Value.ofText? text).bind ofValue?

/-- Settings as a text that reads back as the same settings. -/
def toYaml (c : Config) : String :=
  Yaml.entryLine "delimiter" ((c.delimiter.map Yaml.quoted).getD "null") ++
    Yaml.entryLine "encoding" (Yaml.quoted c.encoding) ++
    Yaml.entryLine "join_kind" c.joinKind.name ++
    Yaml.entryLine "select_join_columns" (if c.selectJoinColumns then "true" else "false") ++
    Yaml.entryLine "bucket" (Yaml.quoted c.bucket) ++
    Yaml.entryLine "default_aggregate" c.defaultAggregate.name

end TabularView.Config
