import TabularView.Text.Join

set_option autoImplicit false

/-! # Pieces of SQL text

A statement is written as a list of pieces: plain text, quoted names and quoted literals. Inside a
quoted piece the quote itself is written twice, so whatever a name or a text holds, it stays inside
its quotes.

`readQuoted_doubled` says that what is written between quotes is read back, and where it ends. -/

namespace TabularView.Sql

/-! ## Quoting -/

/-- The characters with every `q` written twice. -/
def doubled (q : Char) : List Char → List Char
  | [] => []
  | c :: rest => if c = q then q :: q :: doubled q rest else c :: doubled q rest

/-- The characters between two quotes. -/
def quoteChars (q : Char) (s : List Char) : List Char :=
  q :: (doubled q s ++ [q])

/-- A name between double quotes. -/
def quoteName (name : String) : String :=
  String.ofList (quoteChars '"' name.toList)

/-- A text between single quotes. -/
def quoteText (text : String) : String :=
  String.ofList (quoteChars '\x27' text.toList)

/-- The characters up to the quote that closes, which is a `q` not followed by another one, and what
comes after it. -/
def readQuoted (q : Char) : List Char → Option (List Char × List Char)
  | [] => none
  | [c] => if c = q then some ([], []) else none
  | c :: d :: rest =>
    if c = q then
      if d = q then (readQuoted q rest).map fun (s, after) => (q :: s, after)
      else some ([], d :: rest)
    else (readQuoted q (d :: rest)).map fun (s, after) => (c :: s, after)

theorem readQuoted_doubled (q : Char) (s after : List Char) (h : after.head? ≠ some q) :
    readQuoted q (doubled q s ++ q :: after) = some (s, after) := by
  induction s with
  | nil =>
    cases after with
    | nil => simp [doubled, readQuoted]
    | cons d rest =>
      have hd : d ≠ q := fun e => h (by simp [e])
      simp [doubled, readQuoted, hd]
  | cons c rest ih =>
    by_cases hc : c = q
    · subst hc
      simp [doubled, readQuoted, ih]
    · obtain ⟨d, tail, hd⟩ : ∃ d tail, doubled q rest ++ q :: after = d :: tail := by
        cases hx : doubled q rest with
        | nil => exact ⟨q, after, rfl⟩
        | cons d tail => exact ⟨d, tail ++ q :: after, rfl⟩
      rw [hd] at ih
      simp [doubled, hc, hd, readQuoted, ih]

/-! ## Pieces -/

/-- A piece of a statement. -/
inductive Piece
  | plain (s : String)
  | name (s : String)
  | text (s : String)
deriving DecidableEq, Repr

/-- A piece as it is written. -/
def Piece.render : Piece → String
  | .plain s => s
  | .name s => quoteName s
  | .text s => quoteText s

/-- Pieces written one after the other. -/
def render : List Piece → String
  | [] => ""
  | piece :: rest => piece.render ++ render rest

theorem render_append (a b : List Piece) : render (a ++ b) = render a ++ render b := by
  induction a with
  | nil => simp [render]
  | cons piece rest ih => simp [render, ih, String.append_assoc]

/-- Groups of pieces with a separator between neighbours. -/
def separated (sep : String) : List (List Piece) → List Piece
  | [] => []
  | [pieces] => pieces
  | pieces :: next :: rest => pieces ++ .plain sep :: separated sep (next :: rest)

end TabularView.Sql
