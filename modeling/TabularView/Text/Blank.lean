set_option autoImplicit false

/-! # Blank characters and trimming

A character is *blank* when it has the Unicode property `White_Space`: 25 code points, listed here
as ranges. Headers, cells, labels and filter texts are judged without the blanks around them, so
the same `trim` serves them all.

`trimmed_eq_self` says that a text without blanks at its ends stays as it is. -/

namespace TabularView.Text

/-! ## The property -/

/-- A code point with the Unicode property `White_Space`. -/
def isBlank (c : Char) : Bool :=
  let n := c.toNat
  (9 ≤ n && n ≤ 13) || n == 32 || n == 0x85 || n == 0xA0 || n == 0x1680 ||
    (0x2000 ≤ n && n ≤ 0x200A) || n == 0x2028 || n == 0x2029 || n == 0x202F || n == 0x205F ||
    n == 0x3000

/-- What ASCII prints is not blank. -/
theorem isBlank_of_printable {c : Char} (hlow : 33 ≤ c.toNat) (hhigh : c.toNat ≤ 126) :
    isBlank c = false := by
  simp only [isBlank, Bool.or_eq_false_iff, Bool.and_eq_false_iff, decide_eq_false_iff_not,
    beq_eq_false_iff_ne]
  omega

/-! ## Trimming -/

/-- The characters with the blanks at both ends removed. -/
def trimmed (s : List Char) : List Char :=
  ((s.dropWhile isBlank).reverse.dropWhile isBlank).reverse

/-- Nothing is trimmed where neither end is blank. -/
theorem trimmed_eq_self {s : List Char} (hfirst : ∀ c ∈ s.head?, isBlank c = false)
    (hlast : ∀ c ∈ s.getLast?, isBlank c = false) : trimmed s = s := by
  have hkept : ∀ s : List Char, (∀ c ∈ s.head?, isBlank c = false) → s.dropWhile isBlank = s := by
    intro s h
    cases s with
    | nil => rfl
    | cons c rest => rw [List.dropWhile_cons_of_neg (by simp [h c rfl])]
  rw [trimmed, hkept s hfirst, hkept s.reverse (by rwa [List.head?_reverse]), List.reverse_reverse]

/-- The text with the blanks at both ends removed. -/
def trim (s : String) : String :=
  String.ofList (trimmed s.toList)

/-- The characters with every trailing occurrence of `c` removed. -/
def trimEnd (c : Char) (s : String) : String :=
  String.ofList ((s.toList.reverse.dropWhile (· == c)).reverse)

end TabularView.Text
