import TabularView.Number.Word

set_option autoImplicit false

/-! # Digits

The lexical tests for dates and numbers accept every Unicode decimal digit (general category `Nd`),
while values are computed from ASCII digits only; so a text may look like a number and still have
no value. Both notions live here: `isDecimalDigit` for the look, `asciiDigit?` and `readNat?` for
the value.

`isDecimalDigit_of_asciiDigit?` says that a digit with a value also has the look. Digits to other
bases serve escapes, and numbers in settings. -/

namespace TabularView.Text

/-! ## The property -/

/-- The zeros of all runs of ten decimal digits in version 16 of the standard; the other nine follow
each zero. -/
def digitZeros : List Nat :=
  [
    0x0030, 0x0660, 0x06F0, 0x07C0, 0x0966, 0x09E6, 0x0A66, 0x0AE6, 0x0B66, 0x0BE6,
    0x0C66, 0x0CE6, 0x0D66, 0x0DE6, 0x0E50, 0x0ED0, 0x0F20, 0x1040, 0x1090, 0x17E0,
    0x1810, 0x1946, 0x19D0, 0x1A80, 0x1A90, 0x1B50, 0x1BB0, 0x1C40, 0x1C50, 0xA620,
    0xA8D0, 0xA900, 0xA9D0, 0xA9F0, 0xAA50, 0xABF0, 0xFF10, 0x104A0, 0x10D30, 0x10D40,
    0x11066, 0x110F0, 0x11136, 0x111D0, 0x112F0, 0x11450, 0x114D0, 0x11650, 0x116C0, 0x116D0,
    0x116DA, 0x11730, 0x118E0, 0x11950, 0x11BF0, 0x11C50, 0x11D50, 0x11DA0, 0x11F50, 0x16130,
    0x16A60, 0x16AC0, 0x16B50, 0x16D70, 0x1CCF0, 0x1D7CE, 0x1D7D8, 0x1D7E2, 0x1D7EC, 0x1D7F6,
    0x1E140, 0x1E2F0, 0x1E4F0, 0x1E5F1, 0x1E950, 0x1FBF0]

/-- A character of general category `Nd`. -/
def isDecimalDigit (c : Char) : Bool :=
  digitZeros.any fun z => z ≤ c.toNat && c.toNat < z + 10

/-! ## Values -/

/-- The value of an ASCII digit. -/
def asciiDigit? (c : Char) : Option Nat :=
  if '0' ≤ c ∧ c ≤ '9' then some (c.toNat - '0'.toNat) else none

/-- An ASCII digit. -/
def isAsciiDigit (c : Char) : Bool :=
  (asciiDigit? c).isSome

/-- The value of a hexadecimal digit. -/
def hexDigit? (c : Char) : Option Nat :=
  if '0' ≤ c ∧ c ≤ '9' then some (c.toNat - 48)
  else if 'a' ≤ c ∧ c ≤ 'f' then some (c.toNat - 87)
  else if 'A' ≤ c ∧ c ≤ 'F' then some (c.toNat - 55)
  else none

/-- The number written by digits to a base of at most sixteen, of which there is at least one. -/
def readBase? (base : Nat) : List Char → Option Nat
  | [] => none
  | digits => digits.foldlM (fun n c =>
      ((hexDigit? c).filter (· < base)).map fun d => n * base + d) 0

/-- The number written by ASCII digits, continued from `acc`; no value if a character is not one. -/
def readDigits? (acc : Nat) : List Char → Option Nat
  | [] => some acc
  | c :: rest =>
    match asciiDigit? c with
    | some d => readDigits? (acc * 10 + d) rest
    | none => none

/-- The number written by one or more ASCII digits. -/
def readNat? : List Char → Option Nat
  | [] => none
  | c :: rest => readDigits? 0 (c :: rest)

/-- The whole number written by an optional sign and one or more ASCII digits. -/
def readInt? : List Char → Option Int
  | '+' :: rest => (readNat? rest).map Int.ofNat
  | '-' :: rest => (readNat? rest).map fun n => -Int.ofNat n
  | s => (readNat? s).map Int.ofNat

/-- The whole number written by a text, if it fits in 64 bits with a sign. -/
def readInt64? (s : List Char) : Option Int :=
  match readInt? s with
  | some n => if isSigned64 n then some n else none
  | none => none

theorem isDecimalDigit_of_asciiDigit? {c : Char} {d : Nat} (h : asciiDigit? c = some d) :
    isDecimalDigit c = true := by
  unfold asciiDigit? at h
  split at h
  · rename_i hc
    have h0 : 48 ≤ c.toNat := hc.1
    have h9 : c.toNat ≤ 57 := hc.2
    simp only [isDecimalDigit, digitZeros, List.any_cons, Bool.or_eq_true, Bool.and_eq_true,
      decide_eq_true_eq]
    left
    omega
  · cases h

/-! ## Writing -/

/-- The hexadecimal digit with a value. -/
def hexChar (n : Nat) : Char :=
  if n < 10 then Char.ofNat (48 + n) else Char.ofNat (87 + n)

/-- A number below a hundred in two digits. -/
def twoDigits (n : Nat) : String :=
  (if n < 10 then "0" else "") ++ toString n

/-- A number written with leading zeros up to `width` characters. -/
def padded (width n : Nat) : String :=
  let digits := toString n
  String.ofList (List.replicate (width - digits.length) '0') ++ digits

end TabularView.Text
