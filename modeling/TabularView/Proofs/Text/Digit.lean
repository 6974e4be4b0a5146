import Mathlib.Data.List.Basic
import TabularView.Text.Digit

set_option autoImplicit false

/-! # Whole numbers as texts

A number that fits in 64 bits with a sign is read back as it was written (`readInt64?_toString`).
What is written of it are digits, with a minus sign in front if it is negative. -/

namespace TabularView.Text

/-- A run of characters with a property ends where the property does. -/
theorem span_run {p : Char → Bool} {run rest : List Char} (h : ∀ c ∈ run, p c = true)
    (hrest : ∀ c ∈ rest.head?, p c = false) :
    (run ++ rest).takeWhile p = run ∧ (run ++ rest).dropWhile p = rest := by
  rw [List.takeWhile_append_of_pos h, List.dropWhile_append_of_pos h]
  cases rest with
  | nil => simp
  | cons c rest =>
      have hc : ¬ p c = true := by simp [hrest c rfl]
      rw [List.takeWhile_cons_of_neg hc, List.dropWhile_cons_of_neg hc, List.append_nil]
      exact ⟨rfl, rfl⟩

/-! ## Natural numbers -/

theorem asciiDigit?_of_isDigit {c : Char} (h : c.isDigit = true) :
    asciiDigit? c = some (c.toNat - '0'.toNat) := by
  simp only [Char.isDigit, Bool.and_eq_true, decide_eq_true_eq] at h
  unfold asciiDigit?
  exact if_pos h

/-- Digits are read from left to right, each worth ten of the next. -/
theorem readDigits?_eq {digits : List Char} (h : ∀ c ∈ digits, c.isDigit = true) (acc : Nat) :
    readDigits? acc digits = some (Nat.ofDigitChars 10 digits acc) := by
  induction digits generalizing acc with
  | nil => rfl
  | cons c rest ih =>
      obtain ⟨hc, hrest⟩ := List.forall_mem_cons.1 h
      rw [readDigits?, asciiDigit?_of_isDigit hc]
      show readDigits? (acc * 10 + (c.toNat - '0'.toNat)) rest = _
      rw [ih hrest, Nat.mul_comm]
      rfl

theorem isDigit_of_mem_toDigits {n : Nat} {c : Char} (h : c ∈ Nat.toDigits 10 n) :
    c.isDigit = true :=
  Nat.isDigit_of_mem_toDigits (by decide) (by decide) h

theorem readNat?_toDigits (n : Nat) : readNat? (Nat.toDigits 10 n) = some n := by
  have hread : readDigits? 0 (Nat.toDigits 10 n) = some n := by
    rw [readDigits?_eq fun c hc => isDigit_of_mem_toDigits hc, Nat.ofDigitChars_ten_toDigits]
  cases hdigits : Nat.toDigits 10 n with
  | nil => exact absurd hdigits Nat.toDigits_ne_nil
  | cons c rest =>
      rw [hdigits] at hread
      exact hread

theorem isDigit_of_asciiDigit? {c : Char} {d : Nat} (h : asciiDigit? c = some d) :
    c.isDigit = true := by
  unfold asciiDigit? at h
  split at h
  · next hc =>
      simp only [Char.isDigit, Bool.and_eq_true, decide_eq_true_eq]
      exact hc
  · cases h

theorem isDigit_of_readDigits? {digits : List Char} {acc n : Nat}
    (h : readDigits? acc digits = some n) : ∀ c ∈ digits, c.isDigit = true := by
  induction digits generalizing acc with
  | nil => exact List.forall_mem_nil _
  | cons c rest ih =>
      unfold readDigits? at h
      split at h
      · next d hd => exact List.forall_mem_cons.2 ⟨isDigit_of_asciiDigit? hd, ih h⟩
      · cases h

/-- The digits write a number. -/
def Writes (digits : List Char) (n : Nat) : Prop :=
  digits ≠ [] ∧ (∀ c ∈ digits, c.isDigit = true) ∧ Nat.ofDigitChars 10 digits 0 = n

/-- A number is read exactly where digits write it. -/
theorem readNat?_eq_some_iff {digits : List Char} {n : Nat} :
    readNat? digits = some n ↔ Writes digits n := by
  cases digits with
  | nil => exact iff_of_false (fun h => nomatch h) fun h => h.1 rfl
  | cons c rest =>
      show readDigits? 0 (c :: rest) = some n ↔ _
      constructor
      · intro h
        have hdigits := isDigit_of_readDigits? h
        rw [readDigits?_eq hdigits] at h
        exact ⟨List.cons_ne_nil c rest, hdigits, Option.some.inj h⟩
      · rintro ⟨-, hdigits, rfl⟩
        exact readDigits?_eq hdigits 0

/-- A run of digits is read as the number they make. -/
theorem readNat?_eq {digits : List Char} (hne : digits ≠ [])
    (h : ∀ c ∈ digits, c.isDigit = true) :
    readNat? digits = some (Nat.ofDigitChars 10 digits 0) :=
  readNat?_eq_some_iff.2 ⟨hne, h, rfl⟩

/-! ## Numbers with a sign -/

/-- A text of digits has no sign in front. -/
theorem readInt?_of_isDigit {s : List Char} (h : ∀ c ∈ s, c.isDigit = true) :
    readInt? s = (readNat? s).map Int.ofNat := by
  unfold readInt?
  split
  · exact absurd (h '+' (List.mem_cons_self ..)) (by decide)
  · exact absurd (h '-' (List.mem_cons_self ..)) (by decide)
  · rfl

theorem toList_toString_ofNat (n : Nat) :
    (toString (Int.ofNat n)).toList = Nat.toDigits 10 n := by
  show (toString n).toList = _
  rw [Nat.toString_eq_ofList_toDigits, String.toList_ofList]

theorem toList_toString_negSucc (n : Nat) :
    (toString (Int.negSucc n)).toList = '-' :: Nat.toDigits 10 (n + 1) := by
  show ("-" ++ toString (n + 1)).toList = _
  simp

theorem readInt?_toString (n : Int) : readInt? (toString n).toList = some n := by
  cases n with
  | ofNat n =>
      rw [toList_toString_ofNat, readInt?_of_isDigit fun c hc => isDigit_of_mem_toDigits hc,
        readNat?_toDigits]
      rfl
  | negSucc n =>
      rw [toList_toString_negSucc, readInt?, readNat?_toDigits]
      rfl

/-- A number that fits is read back. -/
theorem readInt64?_toString {n : Int} (h : isSigned64 n = true) :
    readInt64? (toString n).toList = some n := by
  rw [readInt64?, readInt?_toString]
  exact if_pos h

theorem isSigned64_of_readInt64? {s : List Char} {n : Int} (h : readInt64? s = some n) :
    isSigned64 n = true := by
  unfold readInt64? at h
  split at h
  · split at h
    · next hfits =>
        obtain rfl := Option.some.inj h
        exact hfits
    · cases h
  · cases h

/-- Nothing but digits and a minus sign is written. -/
theorem isDigit_or_eq_minus_of_mem_toString {n : Int} {c : Char} (h : c ∈ (toString n).toList) :
    c.isDigit = true ∨ c = '-' := by
  cases n with
  | ofNat n =>
      rw [toList_toString_ofNat] at h
      exact Or.inl (isDigit_of_mem_toDigits h)
  | negSucc n =>
      rw [toList_toString_negSucc] at h
      rcases List.mem_cons.1 h with hsign | hdigits
      · exact Or.inr hsign
      · exact Or.inl (isDigit_of_mem_toDigits hdigits)

end TabularView.Text
