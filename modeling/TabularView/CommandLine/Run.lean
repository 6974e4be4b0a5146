import TabularView.Batch.Json
import TabularView.CommandLine.Arguments
import TabularView.CommandLine.Session
import TabularView.Config.Yaml
import TabularView.Json.Parser
import TabularView.Json.Printer
import TabularView.Query.Yaml
import TabularView.Storage.Key

set_option autoImplicit false

/-! # Running commands

Each command is a session that may break off with a fault. A fault carries what was being done, from
the outside in, and its text names these tasks first; a document that cannot be parsed has no text
of its own. -/

namespace TabularView.CommandLine

/-! ## Faults -/

/-- What a command does that can fail. -/
inductive Task
  | loadConfig (path : String)
  | openConfig (path : String)
  | parseConfig (path : String)
  | openResult (path : String)
  | parseResult (path : String)
  | openInput (path : String)
  | writeResult (path : String)
  | createScript (path : String)
  | writeStatements (path : String)
  | openAxes (path : String)
  | parseAxes (path : String)
  | planView
  | compileBindings
deriving DecidableEq, Repr

/-- A task in words. -/
def Task.text : Task → String
  | .loadConfig path => "Loading config from " ++ Text.shown path
  | .openConfig path => "Opening config file " ++ Text.shown path
  | .parseConfig path => "Parsing config YAML " ++ Text.shown path
  | .openResult path => "Opening result file " ++ Text.shown path
  | .parseResult path => "Parsing result JSON " ++ Text.shown path
  | .openInput path => "Opening input file " ++ Text.shown path
  | .writeResult path => "Writing result to " ++ Text.shown path
  | .createScript path => "Creating SQL script " ++ Text.shown path
  | .writeStatements path => "Writing statements to " ++ Text.shown path
  | .openAxes path => "Opening axes file " ++ Text.shown path
  | .parseAxes path => "Parsing axes YAML " ++ Text.shown path
  | .planView => "Planning view from result"
  | .compileBindings => "Compiling axis bindings"

/-- Why a command broke off. -/
inductive CommandFault
  | file (fault : FileFault)
  | malformed
  | settings (fault : ConfigFault)
  | library (failure : Failure)
  | batch (reason : String)
  | timestamp (millis : Int)
  | during (task : Task) (cause : CommandFault)
deriving DecidableEq, Repr

namespace CommandFault

/-- The causes from the outside in. What the system says of a file is told once as the library's
failure and once more as its cause. -/
def causes : CommandFault → List String
  | .file fault => [fault.text]
  | .malformed => []
  | .settings fault => [fault.text]
  | .library (.inputOutput text) => [(Failure.inputOutput text).message, text]
  | .library failure => [failure.message]
  | .batch reason => ["Batch failed: " ++ reason]
  | .timestamp millis => [toString millis ++ " is not a valid millisecond timestamp"]
  | .during task cause => task.text :: causes cause

/-- The fault in one line. -/
def text (f : CommandFault) : String :=
  Text.joinWith ": " f.causes

end CommandFault

/-! ## Steps -/

/-- A part of a command: a session that may break off. -/
abbrev Step := ExceptT CommandFault Session

namespace Step

variable {α : Type}

/-- The same part with its task named in a fault. -/
def during (task : Task) (part : Step α) : Step α :=
  ExceptT.adapt (.during task) part

/-- A value, unless a part of the library failed. -/
def ofFailure (result : Except Failure α) : Step α :=
  match result with
  | .ok a => pure a
  | .error f => throw (.library f)

/-- A value, unless the settings do not allow it. -/
def ofSettings (result : Except ConfigFault α) : Step α :=
  match result with
  | .ok a => pure a
  | .error f => throw (.settings f)

/-- Prints a text. -/
def print (text : String) : Step Unit :=
  ExceptT.lift (Session.printText text)

/-- Writes a file. -/
def write (task : Task) (path text : String) : Step Unit := do
  match ← ExceptT.lift (Session.writeFile path text) with
  | .ok () => pure ()
  | .error fault => throw (.during task (.file fault))

/-- The bytes of a file that can be opened; a directory can, but has none. -/
def bytesOf (path : String) : Step (Except FileFault (Option Bytes)) := do
  match ← ExceptT.lift (Session.readFile path) with
  | .ok bytes => pure (.ok (some bytes))
  | .error .isDirectory => pure (.ok none)
  | .error fault => pure (.error fault)

/-- The document in a file. -/
def document (openTask parseTask : Task) (path : String) (parse? : Bytes → Option α) :
    Step α := do
  match ← bytesOf path with
  | .error fault => throw (.during openTask (.file fault))
  | .ok bytes =>
    match bytes.bind parse? with
    | some a => pure a
    | none => throw (.during parseTask .malformed)

end Step

/-! ## Reading files -/

/-- The settings in a file, checked; without a file, all defaults. -/
def loadConfig : Option String → Step Config
  | none => pure {}
  | some path => Step.during (.loadConfig path) do
    let config ← Step.document (.openConfig path) (.parseConfig path) path fun bytes =>
      (Encoding.decodeUtf8? bytes).bind fun text => Config.ofYaml? (String.ofList text)
    Step.ofSettings config.validate
    pure config

/-- The result in a file. -/
def loadResult (path : String) : Step BatchResult :=
  Step.document (.openResult path) (.parseResult path) path fun bytes => do
    let text ← Encoding.decodeUtf8? bytes
    let json ← Json.parse? (String.ofList text)
    BatchResult.ofJson? json

/-- A file of a batch. -/
def openInput (path : String) : Step Upload :=
  Step.during (.openInput path) do
    match PathName.fileName? path with
    | none => throw (.library (.unexpected (.noFileName path)))
    | some fileName =>
      match ← Step.bytesOf path with
      | .ok (some bytes) => pure { fileName, stream := { bytes } }
      | .ok none =>
        pure { fileName, stream := { bytes := [], failure := some FileFault.isDirectory.text } }
      | .error fault => throw (.library (.inputOutput fault.text))

/-! ## Commands -/

/-- The settings with those of the command line in place of their own. -/
def IngestCommand.override (c : IngestCommand) (config : Config) : Config :=
  { config with
    encoding := c.encoding.getD config.encoding
    joinKind := c.joinKind.getD config.joinKind }

/-- The statements of a result as a script. -/
def scriptOf (r : BatchResult) : String × Except Failure String :=
  r.publish (fun script statement => .ok (script ++ statement ++ ";\n\n")) ""

/-- Why a batch failed: the last problem that ends one. -/
def failureReason (r : BatchResult) : String :=
  match r.problems.reverse.find? (·.isBatchFatal) with
  | some p => p.message
  | none => "unknown failure"

/-- Writes the statements of a result into a script. -/
def writeScript (r : BatchResult) (path : String) : Step Unit := do
  let (script, outcome) := scriptOf r
  Step.write (.createScript path) path script
  let _ ← Step.during (.writeStatements path) (Step.ofFailure outcome)

/-- Runs a batch, hands out its result, and writes the script if one is wanted. -/
def IngestCommand.run (c : IngestCommand) (foreign : ForeignDecoders) : Step Unit := do
  let config ← loadConfig c.config
  let ingestor ← Step.ofSettings ((c.override config).ingestor c.model foreign)
  let ingestor := { ingestor with delimiter := c.delimiter.or ingestor.delimiter }
  let prior ← match c.prior with
    | some path => (·.fileInformation) <$> loadResult path
    | none => pure []
  let uploads ← c.inputs.mapM fun path => do
    let upload ← openInput path
    pure { upload with operation := c.operation, tableName := c.table }
  let r := ingestor.ingest false uploads prior
  let text := r.toJson.pretty 0
  match c.output with
  | some path => Step.write (.writeResult path) path text
  | none => Step.print (text ++ "\n")
  if !r.isOk then throw (.batch (failureReason r))
  match c.sql with
  | some path => writeScript r path
  | none => pure ()

/-- Compiles axis bindings against a result and prints both queries. -/
def CompileCommand.run (c : CompileCommand) : Step Unit := do
  let config ← loadConfig c.config
  let bindings ← Step.document (.openAxes c.axes) (.parseAxes c.axes) c.axes fun bytes =>
    (Encoding.decodeUtf8? bytes).bind fun text => AxisBindings.ofYaml? (String.ofList text)
  let result ← loadResult c.result
  let view ← Step.during .planView (Step.ofFailure result.view)
  let query ← Step.during .compileBindings
    (Step.ofFailure (compileBindings config.defaultAggregate bindings view))
  Step.print ("-- glyph query\n" ++ query.text ++ ";\n\n-- bounds query\n" ++ query.boundsText ++
    ";\n")

/-- Prints the names that belong to a file, and where it is archived if a time is given. -/
def PathsCommand.run (c : PathsCommand) : Step Unit := do
  let landing ← Step.ofFailure (c.model.landingKey c.table c.file)
  let columnar ← Step.ofFailure (c.model.columnarKey c.table c.file)
  Step.print ("table: " ++ c.model.tableName c.table ++ "\nview: " ++ c.model.viewName ++
    "\ncsv: " ++ landing ++ "\nparquet: " ++ columnar ++ "\n")
  match c.millis with
  | none => pure ()
  | some millis => do
    if !Instant.isArchivableMillis millis then throw (.timestamp millis)
    let archivedLanding ← Step.ofFailure (ObjectKey.archiveKey landing millis)
    Step.print ("archive csv: " ++ archivedLanding ++ "\n")
    let archivedColumnar ← Step.ofFailure (ObjectKey.archiveKey columnar millis)
    Step.print ("archive parquet: " ++ archivedColumnar ++ "\n")

/-- Runs a command. -/
def Command.run (foreign : ForeignDecoders) : Command → Step Unit
  | .ingest c => c.run foreign
  | .compile c => c.run
  | .paths c => c.run

/-! ## Whole command lines -/

/-- How a command line ended: the exit code, and the complaint if there is one. -/
structure ExitReport where
  code : Nat
  complaint : String := ""
deriving DecidableEq, Repr

/-- How command lines are written. -/
def usage : String :=
  "usage: ingest -i FILE... --workspace ID --model ID [--config FILE] [--operation NAME]\n" ++
  "         [--table NAME] [--prior FILE] [--delimiter CHAR] [--input-encoding LABEL]\n" ++
  "         [--join-kind NAME] [-o FILE] [--sql FILE]\n" ++
  "       compile --axes FILE --result FILE [--config FILE]\n" ++
  "       paths --workspace ID --model ID --table NAME --file NAME [--timestamp-ms N]\n"

/-- The session of an invocation. -/
def Invocation.session (i : Invocation) (foreign : ForeignDecoders := .shared) :
    Session ExitReport :=
  match i with
  | .misuse => .done { code := 2, complaint := usage }
  | .help => .print usage (.done { code := 0 })
  | .version => .print "csv-glyph 0.1.0\n" (.done { code := 0 })
  | .command c => do
    match ← (c.run foreign).run with
    | .ok () => pure { code := 0 }
    | .error fault => pure { code := 1, complaint := "error: " ++ fault.text ++ "\n" }

end TabularView.CommandLine
