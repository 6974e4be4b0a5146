import TabularView.Number.Shortest
import TabularView.Proofs.Sql.Token
import TabularView.Proofs.Text.Digit

set_option autoImplicit false

/-! # The characters of written numbers

A number is written with digits, a sign, a point and the letters of `e`, `inf` and `NaN`
(`isNumberChar_of_mem_text`), whichever way its digits are laid out. None of these is a quote or
stands between words, so in SQL text a number is one word. -/

namespace TabularView.Binary64

/-- The characters that numbers are written with. -/
def isNumberChar (c : Char) : Bool :=
  c.isAlphanum || c == '-' || c == '.'

theorem isNumberChar_of_isDigit {c : Char} (h : c.isDigit = true) : isNumberChar c = true := by
  simp [isNumberChar, Char.isAlphanum, h]

theorem isNumberChar_of_mem_toString {n : Int} {c : Char} (h : c ∈ (toString n).toList) :
    isNumberChar c = true := by
  rcases Text.isDigit_or_eq_minus_of_mem_toString h with hdigit | hminus
  · exact isNumberChar_of_isDigit hdigit
  · exact hminus ▸ rfl

theorem isNumberChar_of_mem_positional {digits : List Char}
    (h : ∀ c ∈ digits, isNumberChar c = true) (whole : Int) :
    ∀ c ∈ positional digits whole, isNumberChar c = true := by
  have hzero : isNumberChar '0' = true := rfl
  have hpoint : isNumberChar '.' = true := rfl
  have hzeros : ∀ n, ∀ c ∈ List.replicate n '0', isNumberChar c = true := by
    intro n c hc
    rwa [List.eq_of_mem_replicate hc]
  have htake : ∀ n, ∀ c ∈ digits.take n, isNumberChar c = true :=
    fun n c hc => h c (List.mem_of_mem_take hc)
  have hdrop : ∀ n, ∀ c ∈ digits.drop n, isNumberChar c = true :=
    fun n c hc => h c (List.mem_of_mem_drop hc)
  unfold positional
  split
  · simp only [List.forall_mem_cons, List.forall_mem_append]
    exact ⟨hzero, hpoint, hzeros _, h⟩
  · split
    · simp only [List.forall_mem_cons, List.forall_mem_append]
      exact ⟨⟨h, hzeros _⟩, hpoint, hzero, List.forall_mem_nil _⟩
    · simp only [List.forall_mem_cons, List.forall_mem_append]
      exact ⟨htake _, hpoint, hdrop _⟩

theorem isNumberChar_of_mem_scientific {digits : List Char}
    (h : ∀ c ∈ digits, isNumberChar c = true) (order : Int) :
    ∀ c ∈ scientific digits order, isNumberChar c = true := by
  have hpoint : isNumberChar '.' = true := rfl
  have hletter : isNumberChar 'e' = true := rfl
  have hfraction : ∀ c ∈ (if digits.length ≤ 1 then [] else '.' :: digits.drop 1),
      isNumberChar c = true := by
    split
    · exact List.forall_mem_nil _
    · exact List.forall_mem_cons.2 ⟨hpoint, fun c hc => h c (List.mem_of_mem_drop hc)⟩
  unfold scientific
  simp only [List.forall_mem_cons, List.forall_mem_append]
  exact ⟨⟨fun c hc => h c (List.mem_of_mem_take hc), hfraction⟩, hletter,
    fun c hc => isNumberChar_of_mem_toString hc⟩

theorem isNumberChar_of_mem_magnitudeText (style : Layout) (mantissa : Nat) (exponent : Int) :
    ∀ c ∈ magnitudeText style mantissa exponent, isNumberChar c = true := by
  have hdigits : ∀ n : Nat, ∀ c ∈ (toString n).toList, isNumberChar c = true := by
    intro n c hc
    exact isNumberChar_of_mem_toString (n := (n : Int)) hc
  unfold magnitudeText
  dsimp only
  split
  · exact isNumberChar_of_mem_positional (hdigits _) _
  · exact isNumberChar_of_mem_scientific (hdigits _) _

theorem isNumberChar_of_mem_text (x : Binary64) : ∀ c ∈ x.text.toList, isNumberChar c = true := by
  have hminus : isNumberChar '-' = true := rfl
  cases x with
  | nan => exact List.all_eq_true.1 (by decide)
  | infinite negative => cases negative <;> exact List.all_eq_true.1 (by decide)
  | finite negative m e =>
      have hmagnitude : ∀ c ∈ (if m = 0 then "0.0".toList else magnitudeText .plain m e),
          isNumberChar c = true := by
        split
        · exact List.all_eq_true.1 (by decide)
        · exact isNumberChar_of_mem_magnitudeText .plain m e
      rw [text, String.toList_ofList]
      cases negative with
      | false => exact hmagnitude
      | true => exact List.forall_mem_cons.2 ⟨hminus, hmagnitude⟩

end TabularView.Binary64

namespace TabularView

open Sql (IsPlain IsWord)

theorem isWordChar_of_isNumberChar {c : Char} (h : Binary64.isNumberChar c = true) :
    Sql.isQuote c = false ∧ Sql.isSeparator c = false := by
  simp only [Binary64.isNumberChar, Bool.or_eq_true, beq_iff_eq, or_assoc] at h
  rcases h with h | rfl | rfl
  · exact Sql.isWordChar_of_isAlphanum h
  · decide
  · decide

theorem isPlain_text (x : Binary64) : IsPlain x.text.toList :=
  fun c hc => (isWordChar_of_isNumberChar (x.isNumberChar_of_mem_text c hc)).1

theorem isWord_toString (n : Int) : IsWord (toString n) := by
  refine ⟨fun hnil => ?_, fun _ hc =>
    isWordChar_of_isNumberChar (Binary64.isNumberChar_of_mem_toString hc)⟩
  have hread := Text.readInt?_toString n
  rw [hnil] at hread
  cases hread

end TabularView
