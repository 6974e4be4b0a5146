import TabularView.CommandLine.Run

set_option autoImplicit false

/-! # The command line program

Carries out the session of the command line on the files of the system. No tables of encodings come
with the program, so files in those encodings are read as far as the encodings agree
(`ForeignDecoders.shared`). -/

namespace TabularView.CommandLine

/-- The fault that an error of the system stands for. -/
def faultOf (e : IO.Error) : FileFault :=
  match e with
  | .noFileOrDirectory _ _ _ => .notFound
  | .inappropriateType _ _ details =>
    if details = "not a directory" then .notDirectory else .isDirectory
  | e => .other (toString e)

/-- Carries out a session on the files of the system. -/
def perform {α : Type} : Session α → IO α
  | .done value => pure value
  | .read path next => do
    match ← (IO.FS.readBinFile path).toBaseIO with
    | .ok bytes => perform (next (.ok bytes.toList))
    | .error e => perform (next (.error (faultOf e)))
  | .write path text next => do
    match ← (IO.FS.writeFile path text).toBaseIO with
    | .ok () => perform (next (.ok ()))
    | .error e => perform (next (.error (faultOf e)))
  | .print text next => do
    IO.print text
    perform next

end TabularView.CommandLine

/-- Runs a command line. -/
def main (arguments : List String) : IO UInt32 := do
  let invocation := TabularView.CommandLine.Invocation.ofArguments arguments
  let report ← TabularView.CommandLine.perform invocation.session
  IO.eprint report.complaint
  return UInt32.ofNat report.code
