import TabularView.Text.Case
import TabularView.Text.Fresh

set_option autoImplicit false

/-! # Column names

A header becomes a column name that every storage system accepts: ASCII letters, digits and
underscores only. Spaces, parentheses and hyphens turn into underscores, everything else is
dropped; a header of which nothing is left is named by its position, and a name already taken gets a
number.

`normalize_normalize` says that a name made this way is not changed again. -/

namespace TabularView

namespace ColumnName

/-- A character that stays as it is: an ASCII letter or digit, or an underscore. -/
def isPlain (c : Char) : Bool :=
  ('a' ≤ c && c ≤ 'z') || ('A' ≤ c && c ≤ 'Z') || ('0' ≤ c && c ≤ '9') || c == '_'

/-- A character that becomes an underscore. -/
def isSeparator (c : Char) : Bool :=
  c == ' ' || c == '(' || c == ')' || c == '-'

/-- What a character of a header contributes to the column name. -/
def normalizeChar (c : Char) : Option Char :=
  if isPlain c then some c else if isSeparator c then some '_' else none

/-- The characters of a header that make its column name. -/
def normalizeChars (s : List Char) : List Char :=
  s.filterMap normalizeChar

/-- The column name of a header; it may be empty. -/
def normalize (header : String) : String :=
  String.ofList (normalizeChars header.toList)

theorem isPlain_of_normalizeChar {c d : Char} (h : normalizeChar c = some d) :
    isPlain d = true := by
  unfold normalizeChar at h
  split at h
  · cases h
    assumption
  · split at h
    · cases h
      decide
    · cases h

theorem isPlain_of_mem_normalizeChars {s : List Char} {d : Char} (h : d ∈ normalizeChars s) :
    isPlain d = true := by
  obtain ⟨c, _, hc⟩ := List.mem_filterMap.mp h
  exact isPlain_of_normalizeChar hc

theorem normalizeChars_of_isPlain {s : List Char} (h : ∀ c ∈ s, isPlain c = true) :
    normalizeChars s = s := by
  induction s with
  | nil => rfl
  | cons c rest ih =>
    have hc : normalizeChar c = some c := by simp [normalizeChar, h c (by simp)]
    have hr := ih fun d hd => h d (by simp [hd])
    simp only [normalizeChars] at hr ⊢
    rw [List.filterMap_cons, hc]
    simp [hr]

theorem normalize_normalize (header : String) :
    normalize (normalize header) = normalize header := by
  simp only [normalize, String.toList_ofList]
  rw [normalizeChars_of_isPlain fun c hc => isPlain_of_mem_normalizeChars hc]

/-! ## Header rows -/

/-- The name a header asks for: its column name, or its position counted from one. -/
def preferred (header : String) (index : Nat) : String :=
  let name := normalize header
  if name = "" then "field_" ++ toString (index + 1) else name

/-- The names that the headers of a row ask for. -/
def preferredAll (headers : List String) : List String :=
  headers.zipIdx.map fun (header, index) => preferred header index

/-- The column names of a header row, from left to right, no two the same. -/
def normalizeHeaders (headers : List String) : List String :=
  Text.freshen [] (preferredAll headers)

theorem length_normalizeHeaders (headers : List String) :
    (normalizeHeaders headers).length = headers.length := by
  simp [normalizeHeaders, preferredAll, Text.length_freshen]

end ColumnName

end TabularView
