import TabularView.Csv.Record

set_option autoImplicit false

/-! # Sessions

A command reads files, writes files and prints. A session is a command as a value: it says what to
read, write or print next and how to go on with the answer. The outer layer carries it out on real
files; `Directory` does so on files held in memory.

`bind_assoc` says that sessions can be put one after the other in any grouping. -/

namespace TabularView

/-! ## Faults -/

/-- Why a file could not be read or written. -/
inductive FileFault
  | notFound
  | notDirectory
  | isDirectory
  | other (text : String)
deriving DecidableEq, Repr

/-- The fault as the system words it. -/
def FileFault.text : FileFault → String
  | .notFound => "No such file or directory (os error 2)"
  | .notDirectory => "Not a directory (os error 20)"
  | .isDirectory => "Is a directory (os error 21)"
  | .other text => text

/-! ## Sessions -/

/-- A command that ends with a value. -/
inductive Session (α : Type)
  | done (value : α)
  | read (path : String) (next : Except FileFault Bytes → Session α)
  | write (path text : String) (next : Except FileFault Unit → Session α)
  | print (text : String) (next : Session α)

namespace Session

variable {α β γ : Type}

/-- One session after the other, which may depend on the value of the first. -/
def bind : Session α → (α → Session β) → Session β
  | .done a, f => f a
  | .read path next, f => .read path fun r => (next r).bind f
  | .write path text next, f => .write path text fun r => (next r).bind f
  | .print text next, f => .print text (next.bind f)

instance : Monad Session where
  pure := done
  bind := bind

theorem bind_done (s : Session α) : s.bind done = s := by
  induction s with
  | done a => rfl
  | read path next ih => simp [bind, ih]
  | write path text next ih => simp [bind, ih]
  | print text next ih => simp [bind, ih]

theorem bind_assoc (s : Session α) (f : α → Session β) (g : β → Session γ) :
    (s.bind f).bind g = s.bind fun a => (f a).bind g := by
  induction s with
  | done a => rfl
  | read path next ih => simp [bind, ih]
  | write path text next ih => simp [bind, ih]
  | print text next ih => simp [bind, ih]

/-- Reads a file. -/
def readFile (path : String) : Session (Except FileFault Bytes) :=
  .read path done

/-- Writes a text into a file, in place of what was there. -/
def writeFile (path text : String) : Session (Except FileFault Unit) :=
  .write path text done

/-- Prints a text. -/
def printText (text : String) : Session Unit :=
  .print text (done ())

end Session

end TabularView
