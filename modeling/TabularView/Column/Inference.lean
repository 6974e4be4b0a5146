import TabularView.Column.Name
import TabularView.Field.Checker
import TabularView.Text.Blank
import TabularView.Text.Units

set_option autoImplicit false

/-! # Inferring the type of a column

A column is judged on its values one after the other. A checker stays in the race while both its
stages accept every value that is not blank; at the end the first checker still in the race gives
the type, none gives text, and a column of blanks alone stays unknown.

Types are judged on trimmed values, widths on the values as stored. A value that looks right to a
checker and then fails to convert is reported once, as it puts that checker out of the race. -/

namespace TabularView

/-- A column of a table. Only text columns carry the width of their longest value. -/
structure Column where
  name : String
  originalName : String
  fieldType : FieldType
  longestString : Option Nat := none
deriving DecidableEq, Repr

/-- A value that looked right to a checker but could not be converted. -/
structure Rejection where
  fieldType : FieldType
  message : String
deriving DecidableEq, Repr

/-- A checker, and whether it is still in the race. -/
structure Candidate where
  checker : Checker
  possible : Bool

namespace Candidate

/-- The candidate after a trimmed value, with the rejection that the value led to. -/
def observe (c : Candidate) (value : String) : Candidate × Option Rejection :=
  if !c.possible then (c, none)
  else if !c.checker.looksRight value then ({ c with possible := false }, none)
  else
    match c.checker.convert value with
    | .ok _ => (c, none)
    | .error (.invalidValue _ fault) =>
      ({ c with possible := false },
        some { fieldType := c.checker.fieldType, message := fault.text })
    | .error f =>
      ({ c with possible := false },
        some { fieldType := c.checker.fieldType, message := f.message })

end Candidate

/-- What is known of a column after some of its values. -/
structure ColumnInference where
  candidates : List Candidate
  nonEmpty : Nat
  longest : Nat

namespace ColumnInference

/-- Nothing observed yet, with a chain of checkers to try. -/
def start (chain : List Checker) : ColumnInference where
  candidates := chain.map fun checker => { checker, possible := true }
  nonEmpty := 0
  longest := 0

/-- The candidates after a trimmed value, with the first rejection it led to. -/
def observeAll (value : String) : List Candidate → List Candidate × Option Rejection
  | [] => ([], none)
  | c :: rest =>
    let (c', rejection) := c.observe value
    let (rest', later) := observeAll value rest
    (c' :: rest', rejection.or later)

/-- The state after a value, with the rejection to report for it. -/
def observe (s : ColumnInference) (raw : String) : ColumnInference × Option Rejection :=
  let value := Text.trim raw
  if value = "" then (s, none)
  else
    let (candidates, rejection) := observeAll value s.candidates
    ({ candidates, nonEmpty := s.nonEmpty + 1, longest := max s.longest (Text.units16 raw) },
      rejection)

/-- The state after several values. -/
def observeList (s : ColumnInference) (raws : List String) : ColumnInference :=
  raws.foldl (fun s raw => (s.observe raw).1) s

/-- The type that fits all values so far. -/
def fieldType (s : ColumnInference) : FieldType :=
  if s.nonEmpty = 0 then .unknown
  else
    match s.candidates.find? (·.possible) with
    | some c => c.checker.fieldType
    | none => .string

/-- The column with what has been found out about it. -/
def finish (s : ColumnInference) (name originalName : String) : Column where
  name := name
  originalName := originalName
  fieldType := s.fieldType
  longestString := if s.fieldType = .string then some s.longest else none

/-- The state in one line. -/
def text (s : ColumnInference) : String :=
  let flags := s.candidates.map fun c => if c.possible then "true" else "false"
  "ColumnInference \x7b possible: [" ++ Text.joinWith ", " flags ++ "], non_empty: " ++
    toString s.nonEmpty ++ ", longest: " ++ toString s.longest ++ " \x7d"

end ColumnInference

/-- The column with a header and all its values. -/
def Column.infer (header : String) (values : List String) : Column :=
  ((ColumnInference.start Checker.chain).observeList values).finish (ColumnName.normalize header)
    header

end TabularView
