import TabularView.CommandLine.Session
import TabularView.Text.Join

set_option autoImplicit false

/-! # Files in memory

A directory holds files under the names that lead to them. A name that leads to other names is a
directory itself; what lies outside is not known and counts as missing. -/

namespace TabularView

/-- The files below a working directory, each under the names that lead to it. -/
structure Directory where
  files : List (List String × Bytes)
deriving DecidableEq, Repr

namespace Directory

/-! ## Following a path -/

/-- What a path leads to: a file, a directory, or a name that is missing, with the parts of the path
after it. -/
inductive Place
  | file (name : List String) (bytes : Bytes)
  | directory
  | missing (name rest : List String)

/-- The file under a name. -/
def file? (d : Directory) (name : List String) : Option Bytes :=
  (d.files.find? (·.1 == name)).map (·.2)

/-- Files lie below a name. -/
def isDirectory (d : Directory) (name : List String) : Bool :=
  d.files.any fun (other, _) => name.isPrefixOf other && name ≠ other

/-- The parts of a path that lead nowhere else. -/
def isStill (part : String) : Bool :=
  part = "" || part = "."

/-- What the parts of a path lead to from a directory. -/
def follow (d : Directory) : List String → List String → Except FileFault Place
  | _, [] => .ok .directory
  | here, part :: rest =>
    if isStill part then follow d here rest
    else if part = ".." then
      if here = [] then
        if rest.all fun p => isStill p || p = ".." then .ok .directory else .error .notFound
      else follow d here.dropLast rest
    else
      let name := here ++ [part]
      match d.file? name with
      | some bytes => if rest = [] then .ok (.file name bytes) else .error .notDirectory
      | none => if d.isDirectory name then follow d name rest else .ok (.missing name rest)

/-- What a path leads to. Nothing is known of paths from the root but the root itself. -/
def locate (d : Directory) (path : String) : Except FileFault Place :=
  let parts := (Text.splitAt '/' path.toList).map String.ofList
  if path.startsWith "/" then
    if parts.all isStill then .ok .directory else .error .notFound
  else d.follow [] parts

/-! ## Reading and writing -/

/-- The content of a file. -/
def read (d : Directory) (path : String) : Except FileFault Bytes :=
  match d.locate path with
  | .ok (.file _ bytes) => .ok bytes
  | .ok .directory => .error .isDirectory
  | .ok (.missing _ _) => .error .notFound
  | .error fault => .error fault

/-- The directory with a file under a name. -/
def put (d : Directory) (name : List String) (bytes : Bytes) : Directory where
  files := (name, bytes) :: d.files.filter (·.1 ≠ name)

/-- The directory after a text was written; only the last part of a path may be new. -/
def write (d : Directory) (path text : String) : Except FileFault Directory :=
  match d.locate path with
  | .ok (.file name _) => .ok (d.put name text.toUTF8.toList)
  | .ok .directory => .error .isDirectory
  | .ok (.missing name []) => .ok (d.put name text.toUTF8.toList)
  | .ok (.missing _ rest) => if rest.all (· = "") then .error .isDirectory else .error .notFound
  | .error fault => .error fault

end Directory

/-! ## Carrying out a session -/

/-- How a session ended: its value, the directory it left and what it printed. -/
structure Session.Ending (α : Type) where
  value : α
  directory : Directory
  printed : String

/-- Carries out a session on files in memory, after something was printed. -/
def Session.runFrom {α : Type} (printed : String) : Directory → Session α → Session.Ending α
  | d, .done value => { value, directory := d, printed }
  | d, .read path next => runFrom printed d (next (d.read path))
  | d, .write path text next =>
    match d.write path text with
    | .ok after => runFrom printed after (next (.ok ()))
    | .error fault => runFrom printed d (next (.error fault))
  | d, .print text next => runFrom (printed ++ text) d next

/-- Carries out a session on files in memory. -/
def Session.run {α : Type} (s : Session α) (d : Directory) : Session.Ending α :=
  s.runFrom "" d

end TabularView
