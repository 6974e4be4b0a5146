import TabularView.Batch.Result

set_option autoImplicit false

/-! # Batches that are called off

The owner of a batch may call it off at any time. A batch looks for that before it reads anything,
before each file, before the join is planned and before the view is planned; in between it does not
notice. A batch that has been called off ends in a failure like any other.

When exactly the owner calls is not known. So `Ingestor.ingestWatched` is given the answer that the
batch gets each time it looks. If that is always the same, the batch is one that was called off
before it started, or not at all (`Ingestor.ingest_eq_ingestWatched`). -/

namespace TabularView

/-! ## Looking -/

/-- Where a batch looks whether it has been called off. Files have their places in the order in
which they are applied. -/
inductive Checkpoint
  | reading
  | file (place : Nat)
  | joinPlanning
  | viewPlanning
deriving DecidableEq, Repr

/-- Goes on before a stage, unless the batch has been called off. -/
def proceed (calledOff : Bool) (stage : String) : Except Failure Unit :=
  if calledOff then .error (.unexpected (.cancelled stage)) else .ok ()

namespace BatchState

/-- What comes of the operation of a file. A file that is not to be deleted should have been
read. -/
def operateOn (s : BatchState) (u : Upload) : Loaded → Except Failure BatchState
  | .table report => s.operate u.targetTable u.operation report.stats
  | .deletion =>
    if u.operation = .delete then s.operate u.targetTable .delete (noStats u)
    else .error (.unexpected (.other ("'" ++ u.fileName ++ "' was not read")))

/-- The state after a file, whatever has been loaded for it. -/
def applyAny (s : BatchState) (u : Upload) (loaded : Loaded) : BatchState :=
  let s := match loaded with
    | .table report => s.record report.problems
    | .deletion => s
  match s.operateOn u loaded with
  | .ok after => after
  | .error f => s.record [(Problem.ofFailure u.fileName f).inTable u.targetTable]

end BatchState

/-! ## Running -/

namespace Ingestor

/-- Reads a file for its table, unless the batch has been called off. -/
def loadUnless (i : Ingestor) (calledOff : Bool) (u : Upload) : Except Failure Loaded := do
  proceed calledOff ("reading '" ++ u.fileName ++ "'")
  i.load u

/-- Loads and applies files in order, from a place on and up to the first that cannot be read. -/
def applyWatched (i : Ingestor) (calledOff : Checkpoint → Bool) (place : Nat) (s : BatchState) :
    List Upload → BatchState × Option (String × Failure)
  | [] => (s, none)
  | u :: rest =>
    match i.loadUnless (calledOff (.file place)) u with
    | .ok loaded => applyWatched i calledOff (place + 1) (s.applyAny u loaded) rest
    | .error f => (s, some (u.fileName, f))

/-- Plans the tables that are left after all files have been applied. -/
def planWatched (i : Ingestor) (calledOff : Checkpoint → Bool) (s : BatchState) : Planning :=
  match s.tables.tables with
  | [] => .failed (.tableSet .noTableRemains) s.problems
  | surviving =>
    match proceed (calledOff .joinPlanning) "join planning" with
    | .error f => .failed f s.problems
    | .ok () =>
      let sorted := sortTables surviving
      match planJoin i.model i.selectJoinColumns sorted with
      | .error f => .failed f s.problems
      | .ok join =>
        let problems := s.problems ++ join.problems
        match proceed (calledOff .viewPlanning) "view planning" with
        | .error f => .failed f problems
        | .ok () =>
          match planView i.joinKind i.model.viewName join.tables with
          | .error f => .failed f problems
          | .ok view =>
            match i.tableStatements s join.tables with
            | .error f => .failed f problems
            | .ok statements => .done sorted join.tables view statements problems

/-- Runs a batch over the tables there are, with the answer at each checkpoint. -/
def ingestWatched (i : Ingestor) (calledOff : Checkpoint → Bool) (uploads : List Upload)
    (prior : List TableStats) : BatchResult :=
  match proceed (calledOff .reading) "reading files" with
  | .error f => i.failWith prior [] (label uploads) f
  | .ok () =>
    match i.applyWatched calledOff 0 (.start prior) (Upload.sort uploads) with
    | (s, some (fileName, f)) => i.failWith prior s.problems fileName f
    | (s, none) => i.finish prior (label uploads) (i.planWatched calledOff s)

end Ingestor

end TabularView
