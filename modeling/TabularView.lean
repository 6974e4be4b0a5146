import TabularView.Batch.Json
import TabularView.Batch.Operation
import TabularView.Batch.Result
import TabularView.Batch.TableMap
import TabularView.Batch.Upload
import TabularView.Batch.Watched
import TabularView.Calendar
import TabularView.Column.Inference
import TabularView.Column.Name
import TabularView.CommandLine.Arguments
import TabularView.CommandLine.Directory
import TabularView.CommandLine.Run
import TabularView.CommandLine.Session
import TabularView.Config
import TabularView.Config.Json
import TabularView.Config.Yaml
import TabularView.Csv.Record
import TabularView.Encoding.Decode
import TabularView.Encoding.Label
import TabularView.Failure
import TabularView.Field.Checker
import TabularView.Field.Date
import TabularView.Field.Type
import TabularView.Join.DisjointSet
import TabularView.Join.Plan
import TabularView.Json.Basic
import TabularView.Json.Fields
import TabularView.Json.Parser
import TabularView.Json.Printer
import TabularView.Main
import TabularView.Number.Binary64
import TabularView.Number.Decimal
import TabularView.Number.Shortest
import TabularView.Number.Word
import TabularView.PathName
import TabularView.Problem
import TabularView.Query.Compile
import TabularView.Query.Filter
import TabularView.Query.Json
import TabularView.Query.Yaml
import TabularView.Sql.Piece
import TabularView.Storage.Key
import TabularView.Storage.Segment
import TabularView.Storage.Statement
import TabularView.Table.Append
import TabularView.Table.Order
import TabularView.Table.Stats
import TabularView.Text.Blank
import TabularView.Text.Case
import TabularView.Text.Digit
import TabularView.Text.Escaped
import TabularView.Text.Fresh
import TabularView.Text.Hidden
import TabularView.Text.Join
import TabularView.Text.Units
import TabularView.View.Clause
import TabularView.View.Plan
import TabularView.Yaml.BlockScalar
import TabularView.Yaml.Cursor
import TabularView.Yaml.Document
import TabularView.Yaml.Node
import TabularView.Yaml.Printer
import TabularView.Yaml.Scalar
import TabularView.Yaml.Tag
import TabularView.Yaml.Token
import TabularView.Yaml.Value
import TabularView.Proofs.Batch.Arrival
import TabularView.Proofs.Batch.History
import TabularView.Proofs.Batch.Outcome
import TabularView.Proofs.Table.Appending
import TabularView.Proofs.View.NaturalJoin
import TabularView.Proofs.View.FullJoin
import TabularView.Proofs.Join.Roles
import TabularView.Proofs.View.Columns
import TabularView.Proofs.View.KeyTypes
import TabularView.Proofs.Batch.NameClashes
import TabularView.Proofs.Batch.Rejections
import TabularView.Proofs.Batch.Separation
import TabularView.Proofs.Column.Names
import TabularView.Proofs.Column.Verdict
import TabularView.Proofs.Table.Soundness
import TabularView.Proofs.Batch.Standing
import TabularView.Proofs.Batch.Counts
import TabularView.Proofs.Batch.Retrying
import TabularView.Proofs.Storage.Key
import TabularView.Proofs.Batch.Endings
import TabularView.Proofs.Batch.Resubmission
import TabularView.Proofs.Batch.OwnFiles
import TabularView.Proofs.Sql.Token
import TabularView.Proofs.Number.Text
import TabularView.Proofs.Number.Rounding
import TabularView.Proofs.Number.Shortest
import TabularView.Proofs.Number.Reading
import TabularView.Proofs.Calendar
import TabularView.Proofs.Field.Date
import TabularView.Proofs.Field.Timestamp
import TabularView.Proofs.Field.DateMeaning
import TabularView.Proofs.Field.CanonicalDate
import TabularView.Proofs.Query.Compile
import TabularView.Proofs.Query.Acceptance
import TabularView.Proofs.Query.DateLiterals
import TabularView.Proofs.Query.Tokens
import TabularView.Proofs.Query.Confinement
import TabularView.Proofs.Query.Condition
import TabularView.Proofs.Query.KeptRows
import TabularView.Proofs.Storage.KeySpace
import TabularView.Proofs.Storage.StatementTokens
import TabularView.Proofs.Join.Accounting
import TabularView.Proofs.View.ShownColumns
import TabularView.Proofs.Table.Findings
import TabularView.Proofs.Storage.Widths
import TabularView.Proofs.Table.Order
import TabularView.Proofs.Join.Lookups
import TabularView.Proofs.Encoding.Utf8
import TabularView.Proofs.CommandLine.Directory
import TabularView.Proofs.Json.Text
import TabularView.Proofs.Json.Fields
import TabularView.Proofs.Batch.ResultFile
import TabularView.Proofs.PathName
import TabularView.Proofs.Batch.TableNames
