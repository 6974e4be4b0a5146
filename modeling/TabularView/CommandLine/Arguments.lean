import TabularView.Batch.Upload
import TabularView.Config
import TabularView.Storage.Segment

set_option autoImplicit false

/-! # Command lines

A command line names a command and then options with values. A value follows its option as the next
argument, after an equals sign, or right after a one-letter option; an argument that begins with a
dash is an option unless it is a lone dash. Options are given once, except for the inputs, of which
there may be several after one option and several such options.

`Invocation.ofArguments` decides between a command, a request for help and a misuse; a misuse that
comes first goes before a request for help. -/

namespace TabularView.CommandLine

/-! ## Commands -/

/-- A request to run a batch. -/
structure IngestCommand where
  inputs : List String
  model : Model
  config : Option String := none
  operation : FileOperation := .add
  table : Option String := none
  prior : Option String := none
  delimiter : Option UInt8 := none
  encoding : Option String := none
  joinKind : Option JoinKind := none
  output : Option String := none
  sql : Option String := none
deriving DecidableEq, Repr

/-- A request to compile axis bindings against a result. -/
structure CompileCommand where
  axes : String
  result : String
  config : Option String := none
deriving DecidableEq, Repr

/-- A request for the names that belong to a file. -/
structure PathsCommand where
  model : Model
  table : String
  file : String
  millis : Option Int := none
deriving DecidableEq, Repr

/-- What can be asked for. -/
inductive Command
  | ingest (command : IngestCommand)
  | compile (command : CompileCommand)
  | paths (command : PathsCommand)
deriving DecidableEq, Repr

/-- What a command line asks for. -/
inductive Invocation
  | command (command : Command)
  | help
  | version
  | misuse
deriving DecidableEq, Repr

/-! ## Options -/

/-- An option of a command: its name, its letter if it has one, whether it takes several values, and
which values it takes. -/
structure OptionSpec where
  name : String
  letter : Option Char := none
  many : Bool := false
  accepts : String → Bool := fun _ => true

namespace OptionSpec

/-- An option for any text. -/
def text (name : String) : OptionSpec where
  name := name

/-- An option for a path, which is never empty. -/
def path (name : String) (letter : Option Char) : OptionSpec where
  name := name
  letter := letter
  accepts := (· ≠ "")

/-- An option for a choice. -/
def choice {α : Type} (name : String) (ofName? : String → Option α) : OptionSpec where
  name := name
  accepts := fun value => (ofName? value).isSome

end OptionSpec

/-- The delimiter that a text names or is, if it does. -/
def delimiterOf? (value : String) : Option UInt8 :=
  (readDelimiter value).toOption

/-- The options of a batch. -/
def IngestCommand.options : List OptionSpec :=
  [{ OptionSpec.path "input" (some 'i') with many := true },
    .text "workspace", .text "model", .path "config" none,
    .choice "operation" FileOperation.ofOptionName?, .text "table", .path "prior" none,
    .choice "delimiter" delimiterOf?, .text "input-encoding", .choice "join-kind" JoinKind.ofName?,
    .path "output" (some 'o'), .path "sql" none]

/-- The options of compiling. -/
def CompileCommand.options : List OptionSpec :=
  [.path "axes" none, .path "result" none, .path "config" none]

/-- The options of asking for names. -/
def PathsCommand.options : List OptionSpec :=
  [.text "workspace", .text "model", .text "table", .text "file",
    .choice "timestamp-ms" fun value => Text.readInt64? value.toList]

/-! ## Scanning arguments -/

/-- Options with the values given for them, in order. -/
abbrev Given := List (String × List String)

/-- Why scanning stopped early. -/
inductive Refusal
  | help
  | misuse
deriving DecidableEq, Repr

/-- Arguments that are options. -/
def isOption (argument : List Char) : Bool :=
  match argument with
  | '-' :: _ :: _ => true
  | _ => false

/-- What an argument that is an option says. -/
inductive Flag
  | help
  | option (spec : OptionSpec) (attached : Option String)
  | unknown

/-- The text before an equals sign, and the text after it if there is one. -/
def splitEquals (s : List Char) : String × Option String :=
  (String.ofList (s.takeWhile (· ≠ '=')),
    match s.dropWhile (· ≠ '=') with
    | [] => none
    | _ :: value => some (String.ofList value))

/-- What an argument that begins with a dash says. -/
def readFlag (options : List OptionSpec) : List Char → Flag
  | '-' :: '-' :: rest =>
    let (name, attached) := splitEquals rest
    match options.find? (·.name == name) with
    | some spec => .option spec attached
    | none => if name = "help" && attached.isNone then .help else .unknown
  | '-' :: letter :: rest =>
    match options.find? (·.letter == some letter) with
    | some spec =>
      match rest with
      | [] => .option spec none
      | '=' :: value => .option spec (some (String.ofList value))
      | value => .option spec (some (String.ofList value))
    | none => if letter = 'h' then .help else .unknown
  | _ => .unknown

/-- What has been given with one more option. An option needs a value, takes only some, and is given
twice only if it takes several. -/
def record (given : Given) (spec : OptionSpec) (values : List String) : Except Refusal Given :=
  if values.isEmpty || !values.all spec.accepts || (!spec.many && given.any (·.1 == spec.name)) then
    .error .misuse
  else .ok (given ++ [(spec.name, values)])

/-- An option whose values may still follow. -/
structure OpenOption where
  spec : OptionSpec
  values : List String := []

/-- What has been given once an open option is complete. -/
def closeOption (given : Given) : Option OpenOption → Except Refusal Given
  | none => .ok given
  | some o => record given o.spec o.values

/-- Scans arguments after the name of a command. -/
def scan (options : List OptionSpec) :
    Given → Option OpenOption → List String → Except Refusal Given
  | given, pending, [] => closeOption given pending
  | given, pending, argument :: rest =>
    if isOption argument.toList then do
      let given ← closeOption given pending
      if argument = "--" then if rest = [] then .ok given else .error .misuse
      else
        match readFlag options argument.toList with
        | .help => .error .help
        | .unknown => .error .misuse
        | .option spec none => scan options given (some { spec }) rest
        | .option spec (some value) => do
          let given ← record given spec [value]
          scan options given none rest
    else
      match pending with
      | none => .error .misuse
      | some o =>
        if o.spec.many || o.values.isEmpty then
          scan options given (some { o with values := o.values ++ [argument] }) rest
        else .error .misuse

/-! ## Reading commands -/

/-- All values given for an option. -/
def valuesGiven (given : Given) (name : String) : List String :=
  (given.filter (·.1 == name)).flatMap (·.2)

/-- The value given for an option. -/
def valueGiven? (given : Given) (name : String) : Option String :=
  (valuesGiven given name).head?

/-- The model that options name. -/
def modelGiven? (given : Given) : Option Model := do
  let workspace ← valueGiven? given "workspace"
  let model ← valueGiven? given "model"
  some { workspace, model }

/-- A request to run a batch; the inputs and the model have to be given. -/
def IngestCommand.ofGiven? (given : Given) : Option IngestCommand :=
  match valuesGiven given "input", modelGiven? given with
  | [], _ => none
  | _, none => none
  | inputs, some model => some {
      inputs := inputs
      model := model
      config := valueGiven? given "config"
      operation := ((valueGiven? given "operation").bind FileOperation.ofOptionName?).getD .add
      table := valueGiven? given "table"
      prior := valueGiven? given "prior"
      delimiter := (valueGiven? given "delimiter").bind delimiterOf?
      encoding := valueGiven? given "input-encoding"
      joinKind := (valueGiven? given "join-kind").bind JoinKind.ofName?
      output := valueGiven? given "output"
      sql := valueGiven? given "sql" }

/-- A request to compile; both files have to be given. -/
def CompileCommand.ofGiven? (given : Given) : Option CompileCommand := do
  let axes ← valueGiven? given "axes"
  let result ← valueGiven? given "result"
  some { axes, result, config := valueGiven? given "config" }

/-- A request for names; all of the parts have to be given. -/
def PathsCommand.ofGiven? (given : Given) : Option PathsCommand := do
  let model ← modelGiven? given
  let table ← valueGiven? given "table"
  let file ← valueGiven? given "file"
  let millis := (valueGiven? given "timestamp-ms").bind fun value => Text.readInt64? value.toList
  some { model, table, file, millis }

/-! ## Whole command lines -/

/-- The invocation of a command with these arguments. -/
def invoke (options : List OptionSpec) (read? : Given → Option Command) (arguments : List String) :
    Invocation :=
  match scan options [] none arguments with
  | .error .help => .help
  | .error .misuse => .misuse
  | .ok given =>
    match read? given with
    | some command => .command command
    | none => .misuse

/-- What a command line asks for. -/
def Invocation.ofArguments : List String → Invocation
  | [] => .misuse
  | first :: rest =>
    if first = "ingest" then
      invoke IngestCommand.options (fun g => (IngestCommand.ofGiven? g).map .ingest) rest
    else if first = "compile" then
      invoke CompileCommand.options (fun g => (CompileCommand.ofGiven? g).map .compile) rest
    else if first = "paths" then
      invoke PathsCommand.options (fun g => (PathsCommand.ofGiven? g).map .paths) rest
    else if first = "--help" || first = "-h" then .help
    else if first = "--version" || first = "-V" then .version
    else if first = "help" &&
        (rest.isEmpty || [["ingest"], ["compile"], ["paths"], ["help"]].contains rest) then .help
    else .misuse

end TabularView.CommandLine
