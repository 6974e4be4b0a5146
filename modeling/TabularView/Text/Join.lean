set_option autoImplicit false

/-! # Texts put side by side

Lists in messages and statements are written with a separator between neighbours and none at the
ends. `joinWith_cons_cons` is the step that proofs about written lists use. -/

namespace TabularView.Text

/-- The texts one after the other, with `sep` between neighbours. -/
def joinWith (sep : String) : List String → String
  | [] => ""
  | [s] => s
  | s :: t :: rest => s ++ sep ++ joinWith sep (t :: rest)

theorem joinWith_cons_cons (sep s t : String) (rest : List String) :
    joinWith sep (s :: t :: rest) = s ++ sep ++ joinWith sep (t :: rest) := rfl

/-- A list of names as messages show it: each between single quotes, commas between. -/
def quotedList (names : List String) : String :=
  joinWith ", " (names.map fun name => "'" ++ name ++ "'")

/-! ## Cutting at a separator -/

/-- The pieces of a text between the occurrences of `sep`; there is always at least one. -/
def splitAt (sep : Char) : List Char → List (List Char)
  | [] => [[]]
  | c :: rest =>
    if c = sep then [] :: splitAt sep rest
    else
      match splitAt sep rest with
      | [] => [[c]]
      | piece :: pieces => (c :: piece) :: pieces

/-- The text before the last `sep` and the text after it, if there is one. -/
def splitLast? (sep : Char) (s : List Char) : Option (List Char × List Char) :=
  let after := (s.reverse.takeWhile (· != sep)).reverse
  let before := s.reverse.dropWhile (· != sep)
  match before with
  | [] => none
  | _ :: rest => some (rest.reverse, after)

/-- `true` when `c` occurs in the text. -/
def hasChar (c : Char) (s : String) : Bool :=
  s.toList.contains c

end TabularView.Text
