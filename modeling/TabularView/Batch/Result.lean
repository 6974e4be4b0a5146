import TabularView.Batch.Operation
import TabularView.Config
import TabularView.Storage.Statement
import TabularView.Table.Order

set_option autoImplicit false

/-! # Batches

A batch reads its files, applies them to the tables of a model, and plans what the engine has to be
told: the join, the view and the table statements. The result carries all of it, and the tables it
lists are where the next batch starts.

A failure that ends the batch leaves the tables as they were before. `BatchResult.failed` is the
only way a result without a view comes about. -/

namespace TabularView

/-! ## Results -/

/-- How a batch ended. -/
inductive BatchStatus
  | ok
  | failed
deriving DecidableEq, Repr

/-- The name of a status in results. -/
def BatchStatus.name : BatchStatus → String
  | .ok => "OK"
  | .failed => "FAILED"

/-- The status with a name. -/
def BatchStatus.ofName? (name : String) : Option BatchStatus :=
  [ok, failed].find? (·.name == name)

/-- What a batch hands back. -/
structure BatchResult where
  status : BatchStatus
  fileInformation : List TableStats
  problems : List Problem
  joinInformation : List JoinTable
  joinKind : JoinKind
  viewName : Option String
  viewStatement : Option String
  tableStatements : List String
deriving DecidableEq, Repr

namespace BatchResult

/-- The batch succeeded. -/
def isOk (r : BatchResult) : Bool :=
  r.status == .ok

/-- The recorded problems of a kind. -/
def problemsOf (r : BatchResult) (kind : ErrorKind) : List Problem :=
  r.problems.filter (·.errorType == kind)

/-- The result of a batch that failed: the tables are those before it. -/
def failed (prior : List TableStats) (kind : JoinKind) (problems : List Problem) : BatchResult where
  status := .failed
  fileInformation := prior
  problems := problems
  joinInformation := []
  joinKind := kind
  viewName := none
  viewStatement := none
  tableStatements := []

end BatchResult

/-! ## Running a batch -/

/-- A model with the settings its batches run under. -/
structure Ingestor where
  model : Model
  delimiter : Option UInt8 := none
  encoding : Encoding := .utf8
  joinKind : JoinKind := .left
  selectJoinColumns : Bool := false
  bucket : String := "glyph-data"

namespace Ingestor

/-- The names of all files of a batch in ascending order; failures that are about no single file
are recorded under them. -/
def label (uploads : List Upload) : String :=
  Text.joinWith ", " ((uploads.map (·.fileName)).mergeSort fun a b => (compare a b).isLE)

/-- Reads a file for its table. Nothing is read for a deletion. -/
def load (i : Ingestor) (u : Upload) : Except Failure Loaded :=
  match u.operation with
  | .delete => .ok .deletion
  | _ =>
    let reader : TableReader := {
      fileName := u.fileName
      tableName := u.targetTable
      delimiter := i.delimiter
      encoding := i.encoding }
    match reader.read u.stream with
    | .ok report => .ok (.table report)
    | .error f => .error f

/-- Loads and applies files in order, up to the first that cannot be read. -/
def applyAll (i : Ingestor) (s : BatchState) :
    List Upload → BatchState × Option (String × Failure)
  | [] => (s, none)
  | u :: rest =>
    match i.load u with
    | .ok loaded => applyAll i (s.apply u loaded) rest
    | .error f => (s, some (u.fileName, f))

/-- The statements for the engine: tables that are gone are dropped, then every table is created,
after being dropped if it was rebuilt or deleted on the way. -/
def tableStatements (i : Ingestor) (s : BatchState) (tables : List JoinTable) :
    Except Failure (List TableStatement) := do
  let planned := tables.map (·.tableName)
  let gone := (s.deleted.foldl (fun names name => insertName name names) []).filter
    fun name => !planned.contains name
  let creations ← tables.mapM fun t => do
    let create ← TableStatement.createFor i.bucket i.model t
    .ok (if s.rebuilt.contains t.tableName || s.deleted.contains t.tableName then
      [.drop t.backingTableName, create] else [create])
  .ok (gone.map (fun name => .drop (i.model.tableName name)) ++ creations.flatten)

/-- The outcome of planning: what the batch leads to, or the failure that ends it, each with the
problems recorded on the way. -/
inductive Planning
  | done (tables : List TableStats) (join : List JoinTable) (view : ViewPlan)
      (statements : List TableStatement) (problems : List Problem)
  | failed (failure : Failure) (problems : List Problem)

/-- Plans the tables that are left after all files have been applied. -/
def plan (i : Ingestor) (s : BatchState) : Planning :=
  match s.tables.tables with
  | [] => .failed (.tableSet .noTableRemains) s.problems
  | surviving =>
    let sorted := sortTables surviving
    match planJoin i.model i.selectJoinColumns sorted with
    | .error f => .failed f s.problems
    | .ok join =>
      let problems := s.problems ++ join.problems
      match planView i.joinKind i.model.viewName join.tables with
      | .error f => .failed f problems
      | .ok view =>
        match i.tableStatements s join.tables with
        | .error f => .failed f problems
        | .ok statements => .done sorted join.tables view statements problems

/-- The result of a batch that a failure ended. -/
def failWith (i : Ingestor) (prior : List TableStats) (problems : List Problem) (name : String)
    (f : Failure) : BatchResult :=
  .failed prior i.joinKind (problems ++ [.ofFailure name f])

/-- The result of planning. -/
def finish (i : Ingestor) (prior : List TableStats) (name : String) : Planning → BatchResult
  | .failed f problems => i.failWith prior problems name f
  | .done tables join view statements problems => {
      status := .ok
      fileInformation := tables
      problems := problems
      joinInformation := join
      joinKind := i.joinKind
      viewName := some view.name
      viewStatement := some view.statement
      tableStatements := statements.map (·.text) }

/-- Runs a batch over the tables there are, unless it has been cancelled. -/
def ingest (i : Ingestor) (cancelled : Bool) (uploads : List Upload) (prior : List TableStats) :
    BatchResult :=
  if cancelled then
    i.failWith prior [] (label uploads) (.unexpected (.cancelled "reading files"))
  else
    match i.applyAll (.start prior) (Upload.sort uploads) with
    | (s, some (fileName, f)) => i.failWith prior s.problems fileName f
    | (s, none) => i.finish prior (label uploads) (i.plan s)

end Ingestor

/-- The ingestor of a model under settings. -/
def Config.ingestor (c : Config) (model : Model) (foreign : ForeignDecoders := .shared) :
    Except ConfigFault Ingestor := do
  let delimiter ← c.delimiterByte
  let encoding ← c.resolvedEncoding foreign
  .ok {
    model := model
    delimiter := delimiter
    encoding := encoding
    joinKind := c.joinKind
    selectJoinColumns := c.selectJoinColumns
    bucket := c.bucket }

/-! ## Views of results -/

/-- Plans the view of a result again. -/
def BatchResult.view (r : BatchResult) : Except Failure ViewDefinition :=
  if !r.isOk then .error (.misuse .failedBatch)
  else
    match r.viewName with
    | none => .error (.misuse .noViewName)
    | some name => do
      let view ← planView r.joinKind name r.joinInformation
      .ok view.definition

/-! ## Publishing -/

/-- Gives statements to an engine in order, up to the first that it refuses. -/
def executeAll {σ : Type} (engine : σ → String → Except Failure σ) :
    σ → List String → σ × Option Failure
  | state, [] => (state, none)
  | state, statement :: rest =>
    match engine state statement with
    | .ok after => executeAll engine after rest
    | .error f => (state, some f)

/-- Publishes a result: the table statements, then the view. Gives the engine's last state and the
name of the view. -/
def BatchResult.publish {σ : Type} (r : BatchResult) (engine : σ → String → Except Failure σ)
    (state : σ) : σ × Except Failure String :=
  match r.view with
  | .error f => (state, .error f)
  | .ok view =>
    match executeAll engine state (r.tableStatements ++ [view.statement]) with
    | (after, none) => (after, .ok view.name)
    | (after, some f) => (after, .error f)

end TabularView
