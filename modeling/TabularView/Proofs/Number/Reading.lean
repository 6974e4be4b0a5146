import TabularView.Proofs.Number.Shortest
import TabularView.Proofs.Text.Digit

set_option autoImplicit false

/-! # Written numbers are read back

The text of a finite value is read as that value (`ofText?_text`). Its digits are cut into a whole
part and a fraction again, together they stand for the shortest decimal of the value, and this is
rounded to the value. -/

namespace TabularView

/-! ## Digits -/

namespace Text

theorem isAsciiDigit_of_isDigit {c : Char} (h : c.isDigit = true) : isAsciiDigit c = true := by
  unfold isAsciiDigit
  rw [asciiDigit?_of_isDigit h]
  rfl

/-- A run of digits ends where something else follows. -/
theorem span_digits {digits rest : List Char} (h : ∀ c ∈ digits, c.isDigit = true)
    (hrest : ∀ c ∈ rest.head?, isAsciiDigit c = false) :
    (digits ++ rest).takeWhile isAsciiDigit = digits ∧
      (digits ++ rest).dropWhile isAsciiDigit = rest :=
  span_run (fun c hc => isAsciiDigit_of_isDigit (h c hc)) hrest

end Text

/-! ## The parts of a text -/

namespace Numeral

open Text (isAsciiDigit)

/-- Characters with a minus sign in front if the number is negative. -/
def signed (negative : Bool) (s : List Char) : List Char :=
  if negative then '-' :: s else s

theorem splitSign_signed (negative : Bool) {s : List Char} (hne : s ≠ [])
    (h : ∀ c ∈ s.head?, c.isDigit = true) : splitSign (signed negative s) = (negative, s) := by
  cases negative with
  | true => rfl
  | false =>
      obtain ⟨c, rest, rfl⟩ := List.exists_cons_of_ne_nil hne
      have hc := h c rfl
      show splitSign (c :: rest) = _
      unfold splitSign
      split
      · next heq =>
          obtain ⟨rfl, -⟩ := List.cons.inj heq
          exact absurd hc (by decide)
      · next heq =>
          obtain ⟨rfl, -⟩ := List.cons.inj heq
          exact absurd hc (by decide)
      · rfl

/-- A power of ten is read back. -/
theorem scanExponent_toString (n : Int) :
    scanExponent isAsciiDigit ('e' :: (toString n).toList) =
      some (decide (n < 0), Nat.toDigits 10 n.natAbs) := by
  have hdigits : ∀ k : Nat, (Nat.toDigits 10 k).all isAsciiDigit = true := fun k =>
    List.all_eq_true.2 fun c hc => Text.isAsciiDigit_of_isDigit (Text.isDigit_of_mem_toDigits hc)
  have hsplit : splitSign (toString n).toList = (decide (n < 0), Nat.toDigits 10 n.natAbs) := by
    cases n with
    | ofNat k =>
        have hnonneg : decide (Int.ofNat k < 0) = false :=
          decide_eq_false (Int.natCast_nonneg k).not_gt
        rw [Text.toList_toString_ofNat, hnonneg]
        exact splitSign_signed false Nat.toDigits_ne_nil
          fun c hc => Text.isDigit_of_mem_toDigits (List.mem_of_mem_head? hc)
    | negSucc k =>
        have hnegative : decide (Int.negSucc k < 0) = true := decide_eq_true (Int.negSucc_lt_zero k)
        rw [Text.toList_toString_negSucc, hnegative]
        rfl
  simp only [scanExponent, true_or, if_true, hsplit]
  exact if_pos ⟨Nat.toDigits_ne_nil, hdigits _⟩

theorem scanFraction_point {fraction rest : List Char} (h : ∀ c ∈ fraction, c.isDigit = true)
    (hrest : ∀ c ∈ rest.head?, isAsciiDigit c = false) :
    scanFraction isAsciiDigit ('.' :: (fraction ++ rest)) = (fraction, rest) := by
  obtain ⟨htake, hdrop⟩ := Text.span_digits h hrest
  exact Prod.ext htake hdrop

section Scan

variable {s whole fraction tail rest exponent : List Char} {negative exponentNegative : Bool}

/-- A text is cut into its parts, each of which is a run of digits. -/
theorem scan_eq (hsign : splitSign s = (negative, whole ++ tail)) (hne : whole ≠ [])
    (hwhole : ∀ c ∈ whole, c.isDigit = true) (htail : ∀ c ∈ tail.head?, isAsciiDigit c = false)
    (hfraction : scanFraction isAsciiDigit tail = (fraction, rest))
    (hexponent : scanExponent isAsciiDigit rest = some (exponentNegative, exponent)) :
    scan isAsciiDigit s = some { negative, whole, fraction, exponentNegative, exponent } := by
  obtain ⟨htake, hdrop⟩ := Text.span_digits hwhole htail
  simp [scan, hsign, htake, hdrop, hfraction, hexponent, hne]

/-- The digits of all parts make the number. -/
theorem ofText?_eq (hsign : splitSign s = (negative, whole ++ tail)) (hne : whole ≠ [])
    (hwhole : ∀ c ∈ whole, c.isDigit = true) (htail : ∀ c ∈ tail.head?, isAsciiDigit c = false)
    (hfraction : scanFraction isAsciiDigit tail = (fraction, rest))
    (hfractionDigits : ∀ c ∈ fraction, c.isDigit = true) {power : Int}
    (hexponent : scanExponent isAsciiDigit rest = some (decide (power < 0), exponent))
    (hexponentDigits : ∀ c ∈ exponent, c.isDigit = true)
    (hpower : Nat.ofDigitChars 10 exponent 0 = power.natAbs) :
    Binary64.ofText? s = some (Decimal.toBinary64
      ⟨negative, Nat.ofDigitChars 10 (whole ++ fraction) 0, power - fraction.length⟩) := by
  have hboth : ∀ c ∈ whole ++ fraction, c.isDigit = true := fun c hc =>
    (List.mem_append.1 hc).elim (hwhole c) (hfractionDigits c)
  have hdigits := Text.readDigits?_eq hboth 0
  have hexponentValue := Text.readDigits?_eq hexponentDigits 0
  have hsigned : (if decide (power < 0) = true then -(power.natAbs : Int) else power.natAbs) =
      power := by
    split
    · next h =>
        have hneg := of_decide_eq_true h
        omega
    · next h =>
        have hnonneg := of_decide_eq_false (Bool.eq_false_iff.2 h)
        omega
  simp only [Binary64.ofText?, scan_eq hsign hne hwhole htail hfraction hexponent,
    Decimal.ofNumeral?, hdigits, hexponentValue, hpower, hsigned, Option.map_some]

end Scan

end Numeral

/-! ## The value of a decimal -/

namespace Binary64

variable {m : Nat} {e : Int}

theorem ten_zpow_le : (10 : ℚ) ^ (-325 : Int) ≤ 2 ^ (-1075 : Int) := by
  have hpower : ((10 : ℚ) ^ (-13 : Int)) ^ (25 : Nat) ≤ (2 ^ (-43 : Int)) ^ (25 : Nat) := by
    gcongr
    norm_num
  rwa [← zpow_natCast, ← zpow_natCast, ← zpow_mul, ← zpow_mul] at hpower

theorem two_zpow_le : (2 : ℚ) ^ (1025 : Int) ≤ 10 ^ (310 : Int) := by
  have hpower : ((2 : ℚ) ^ (205 : Int)) ^ (5 : Nat) ≤ (10 ^ (62 : Int)) ^ (5 : Nat) := by
    gcongr
    norm_num
  rwa [← zpow_natCast, ← zpow_natCast, ← zpow_mul, ← zpow_mul] at hpower

/-- What a value stands for is neither too small nor too large to be computed. -/
theorem order_of_represents (h : IsCanonical m e) (hm : 0 < m) {digits : Nat} (hdigits : 0 < digits)
    {exponent : Int} (hr : Represents m e (digits * 10 ^ exponent)) :
    -324 ≤ exponent + decimalLength digits ∧ exponent + decimalLength digits ≤ 310 := by
  obtain ⟨hlow, hhigh⟩ := decimalLength_spec hdigits
  have hlow : (10 : ℚ) ^ decimalLength digits ≤ 10 * digits := by exact_mod_cast hlow
  have hhigh : (digits : ℚ) < 10 ^ decimalLength digits := by exact_mod_cast hhigh
  have hpower : (0 : ℚ) < 10 ^ exponent := by positivity
  have horder : (10 : ℚ) ^ (exponent + decimalLength digits) =
      10 ^ decimalLength digits * 10 ^ exponent := by
    rw [zpow_add₀ (by norm_num), zpow_natCast, mul_comm]
  have hm : (1 : ℚ) ≤ m := by exact_mod_cast hm
  have hlt : (m : ℚ) < 2 ^ 53 := by exact_mod_cast h.lt
  have hreach := reachBelow_le m e
  constructor
  · by_contra hsmall
    have hsmallest : (2 : ℚ) ^ (-1075 : Int) ≤ (m - reachBelow m e) * 2 ^ e := by
      have hexponent : (2 : ℚ) ^ (-1074 : Int) ≤ 2 ^ e := by
        gcongr
        · norm_num
        · exact h.minExponent_le
      have hhalf : (2 : ℚ) ^ (-1075 : Int) = 1 / 2 * 2 ^ (-1074 : Int) := by
        rw [show (-1075 : Int) = -1 + -1074 by norm_num, zpow_add₀ two_ne_zero]
        norm_num
      rw [hhalf]
      exact mul_le_mul (by linarith) hexponent (by positivity) (by linarith)
    have hbound : (10 : ℚ) ^ (exponent + decimalLength digits) ≤ 10 ^ (-325 : Int) := by
      gcongr
      · norm_num
      · omega
    have hvalue : (digits : ℚ) * 10 ^ exponent < 10 ^ (exponent + decimalLength digits) := by
      rw [horder]
      gcongr
    exact absurd hvalue (not_lt.2
      (hbound.trans (ten_zpow_le.trans (hsmallest.trans hr.lower_le))))
  · by_contra hlarge
    have hlargest : ((m : ℚ) + 1 / 2) * 2 ^ e < 2 ^ (1025 : Int) := by
      have hexponent : (2 : ℚ) ^ e ≤ 2 ^ (971 : Int) := by
        gcongr
        · norm_num
        · exact h.le_maxExponent
      calc ((m : ℚ) + 1 / 2) * 2 ^ e < 2 ^ 54 * 2 ^ e := by
            gcongr
            linarith
        _ ≤ 2 ^ 54 * 2 ^ (971 : Int) := by gcongr
        _ = 2 ^ (1025 : Int) := by
            rw [← zpow_natCast, ← zpow_add₀ two_ne_zero]
            norm_num
    have hbound : (10 : ℚ) ^ (311 : Int) ≤ 10 ^ (exponent + decimalLength digits) := by
      gcongr
      · norm_num
      · omega
    have hten : (10 : ℚ) ^ (311 : Int) = 10 * 10 ^ (310 : Int) := by
      rw [show (311 : Int) = 1 + 310 by norm_num, zpow_add₀ (by norm_num), zpow_one]
    have hvalue : (10 : ℚ) ^ (exponent + decimalLength digits) ≤
        10 * (digits * 10 ^ exponent) := by
      rw [horder, ← mul_assoc]
      gcongr
    have hupper := (hr.le_upper.trans_lt hlargest).trans_le two_zpow_le
    rw [hten] at hbound
    generalize (10 : ℚ) ^ (310 : Int) = limit at hbound hupper
    linarith

/-- A decimal that a value stands for is rounded to the value. -/
theorem toBinary64_eq (h : IsCanonical m e) (hm : 0 < m) {d : Decimal} (hdigits : 0 < d.digits)
    (hr : Represents m e (d.digits * 10 ^ d.exponent)) :
    d.toBinary64 = .finite d.negative m e h := by
  obtain ⟨hsmall, hlarge⟩ := order_of_represents h hm hdigits hr
  have hshortcut : ¬ (d.digits = 0 ∨ d.exponent + decimalLength d.digits < -324) := by omega
  have hnum : ∀ k, 0 < d.digits * Nat.pow 10 k := fun k =>
    Nat.mul_pos hdigits (Nat.pow_pos (by decide))
  unfold Decimal.toBinary64
  dsimp only
  rw [if_neg hshortcut, if_neg (not_lt.2 hlarge)]
  split
  · next hexponent =>
      obtain ⟨k, hk⟩ := Int.eq_ofNat_of_zero_le hexponent
      rw [hk] at hr ⊢
      unfold ofRatio
      rw [if_neg (hnum _).ne']
      refine ofMagnitude_eq h (hnum _) Nat.one_pos ?_ d.negative
      simpa using hr
  · next hexponent =>
      obtain ⟨k, hk⟩ := Int.eq_ofNat_of_zero_le (show 0 ≤ -d.exponent by omega)
      have hexponent : d.exponent = -(k : Int) := by omega
      rw [hexponent] at hr ⊢
      unfold ofRatio
      rw [if_neg hdigits.ne']
      refine ofMagnitude_eq h hdigits (Nat.pow_pos (by decide)) ?_ d.negative
      simpa [zpow_neg, div_eq_mul_inv] using hr

/-! ## Layouts -/

theorem exists_positional {digits : List Char} (h : ∀ c ∈ digits, c.isDigit = true)
    (hne : digits ≠ []) (whole : Int) :
    ∃ front back, positional digits whole = front ++ '.' :: back ∧ front ≠ [] ∧
      (∀ c ∈ front, c.isDigit = true) ∧ (∀ c ∈ back, c.isDigit = true) ∧
      (Nat.ofDigitChars 10 (front ++ back) 0 : ℚ) * 10 ^ (0 - back.length : Int) =
        Nat.ofDigitChars 10 digits 0 * 10 ^ (whole - digits.length) := by
  have hzeros : ∀ n, ∀ c ∈ List.replicate n '0', c.isDigit = true := by
    intro n c hc
    rw [List.eq_of_mem_replicate hc]
    rfl
  unfold positional
  split
  · next hwhole =>
      refine ⟨['0'], List.replicate (-whole).toNat '0' ++ digits, rfl, by simp, by simp, ?_, ?_⟩
      · exact List.forall_mem_append.2 ⟨hzeros _, h⟩
      · rw [List.singleton_append, Nat.ofDigitChars_cons, Nat.ofDigitChars_append,
          Nat.ofDigitChars_replicate_zero]
        congr 2
        rw [List.length_append, List.length_replicate]
        omega
  · next hwhole =>
      split
      · next hlength =>
          refine ⟨digits ++ List.replicate (whole.toNat - digits.length) '0', ['0'], by simp,
            by simp [hne], List.forall_mem_append.2 ⟨h, hzeros _⟩, by simp, ?_⟩
          obtain ⟨k, hk⟩ := Nat.exists_eq_add_of_le hlength
          have hplaces : whole - (digits.length : Int) = k := by omega
          have hzero : Nat.ofDigitChars 10 ['0'] (10 ^ k * Nat.ofDigitChars 10 digits 0) =
              10 * (10 ^ k * Nat.ofDigitChars 10 digits 0) := rfl
          rw [Nat.ofDigitChars_append, Nat.ofDigitChars_append, Nat.ofDigitChars_replicate_zero, hk,
            Nat.add_sub_cancel_left, hzero, hplaces, zpow_natCast]
          push_cast
          norm_num
          ring
      · next hlength =>
          refine ⟨digits.take whole.toNat, digits.drop whole.toNat, rfl, ?_,
            fun c hc => h c (List.mem_of_mem_take hc), fun c hc => h c (List.mem_of_mem_drop hc),
            ?_⟩
          · simp [List.take_eq_nil_iff, hne]
            omega
          · rw [List.take_append_drop, List.length_drop]
            congr 2
            omega

/-- What the digits of a written number stand for, wherever the point is. -/
def IsReadAs (s : List Char) (n : Nat) (power : Int) : Prop :=
  ∀ negative, ∃ d : Decimal, ofText? (Numeral.signed negative s) = some d.toBinary64 ∧
    d.negative = negative ∧ (d.digits : ℚ) * 10 ^ d.exponent = n * 10 ^ power

theorem isReadAs_positional {digits : List Char} (h : ∀ c ∈ digits, c.isDigit = true)
    (hne : digits ≠ []) (whole : Int) :
    IsReadAs (positional digits whole) (Nat.ofDigitChars 10 digits 0) (whole - digits.length) := by
  intro negative
  obtain ⟨front, back, htext, hfront, hfrontDigits, hback, hvalue⟩ := exists_positional h hne whole
  have hfraction := @Numeral.scanFraction_point back [] hback (by simp)
  rw [List.append_nil] at hfraction
  have hsign : Numeral.splitSign (Numeral.signed negative (positional digits whole)) =
      (negative, front ++ '.' :: back) := by
    rw [htext]
    refine Numeral.splitSign_signed negative (by simp) ?_
    obtain ⟨c, front, rfl⟩ := List.exists_cons_of_ne_nil hfront
    simpa using hfrontDigits c (by simp)
  have hpoint : ∀ c ∈ ('.' :: back).head?, Text.isAsciiDigit c = false := by
    intro c hc
    obtain rfl : '.' = c := by simpa using hc
    decide
  have hnone : Numeral.scanExponent Text.isAsciiDigit [] = some (decide ((0 : Int) < 0), []) := rfl
  exact ⟨_, Numeral.ofText?_eq hsign hfront hfrontDigits hpoint hfraction hback hnone (by simp) rfl,
    rfl, hvalue⟩

theorem isReadAs_scientific {digits : List Char} (h : ∀ c ∈ digits, c.isDigit = true)
    (hne : digits ≠ []) (order : Int) :
    IsReadAs (scientific digits order) (Nat.ofDigitChars 10 digits 0)
      (order + 1 - digits.length) := by
  intro negative
  have hexponent := Numeral.scanExponent_toString order
  have hletter : ∀ c ∈ ('e' :: (toString order).toList).head?, Text.isAsciiDigit c = false := by
    intro c hc
    obtain rfl : 'e' = c := by simpa using hc
    decide
  obtain ⟨first, more, rfl⟩ := List.exists_cons_of_ne_nil hne
  obtain ⟨hfirst, hmore⟩ := List.forall_mem_cons.1 h
  have hread : ∀ tail, scientific (first :: more) order = [first] ++ tail →
      (∀ c ∈ tail.head?, Text.isAsciiDigit c = false) →
      Numeral.scanFraction Text.isAsciiDigit tail = (more, 'e' :: (toString order).toList) →
      ∃ d : Decimal,
        ofText? (Numeral.signed negative (scientific (first :: more) order)) = some d.toBinary64 ∧
          d.negative = negative ∧ (d.digits : ℚ) * 10 ^ d.exponent =
            Nat.ofDigitChars 10 (first :: more) 0 * 10 ^ (order + 1 - (first :: more).length) := by
    intro tail htext htail hfraction
    have hsign : Numeral.splitSign (Numeral.signed negative (scientific (first :: more) order)) =
        (negative, [first] ++ tail) := by
      rw [htext]
      exact Numeral.splitSign_signed negative (by simp) (by simpa using hfirst)
    refine ⟨_, Numeral.ofText?_eq hsign (by simp) (by simpa using hfirst) htail hfraction hmore
      hexponent (fun c hc => Text.isDigit_of_mem_toDigits hc) Nat.ofDigitChars_ten_toDigits, rfl,
      ?_⟩
    have hplaces : order - (more.length : Int) = order + 1 - ((first :: more).length : Int) := by
      rw [List.length_cons]
      omega
    rw [← hplaces]
    rfl
  cases more with
  | nil => exact hread _ rfl hletter rfl
  | cons second more =>
      refine hread ('.' :: (second :: more ++ 'e' :: (toString order).toList)) ?_ ?_ ?_
      · simp [scientific]
      · intro c hc
        obtain rfl : '.' = c := by simpa using hc
        decide
      · exact Numeral.scanFraction_point hmore hletter

/-! ## Values -/

/-- The digits of a value are read back as the value. -/
theorem ofText?_magnitudeText (h : IsCanonical m e) (hm : 0 < m) (style : Layout)
    (negative : Bool) :
    ofText? (Numeral.signed negative (magnitudeText style m e)) =
      some (.finite negative m e h) := by
  obtain ⟨hpos, hr⟩ := represents_shortest h hm
  have hdigits : (toString (shortest m e).1).toList = Nat.toDigits 10 (shortest m e).1 :=
    Text.toList_toString_ofNat _
  have hread : IsReadAs (magnitudeText style m e) (shortest m e).1 (shortest m e).2 := by
    unfold magnitudeText
    dsimp only
    rw [hdigits]
    have hall : ∀ c ∈ Nat.toDigits 10 (shortest m e).1, c.isDigit = true :=
      fun c hc => Text.isDigit_of_mem_toDigits hc
    have hpositional := isReadAs_positional hall Nat.toDigits_ne_nil
    have hscientific := isReadAs_scientific hall Nat.toDigits_ne_nil
    simp only [Nat.ofDigitChars_ten_toDigits] at hpositional hscientific
    split
    · have hwhole := hpositional
        ((shortest m e).2 + (Nat.toDigits 10 (shortest m e).1).length - 1 + 1)
      simpa using hwhole
    · have horder := hscientific ((shortest m e).2 + (Nat.toDigits 10 (shortest m e).1).length - 1)
      simpa using horder
  obtain ⟨d, hd, rfl, hvalue⟩ := hread negative
  rw [hd, toBinary64_eq h hm ?_ (hvalue ▸ hr)]
  -- a decimal without digits would be zero
  refine Nat.pos_of_ne_zero fun hzero => ?_
  rw [← hvalue, hzero, Nat.cast_zero, zero_mul] at hr
  exact (hr.pos hm).ne rfl

/-- A finite value is read back as it was written, with the sign of a zero. -/
theorem ofText?_text {negative : Bool} (h : IsCanonical m e) :
    ofText? (text (.finite negative m e h)).toList = some (.finite negative m e h) := by
  have htext : (text (.finite negative m e h)).toList =
      Numeral.signed negative (if m = 0 then "0.0".toList else magnitudeText .plain m e) :=
    String.toList_ofList
  rw [htext]
  rcases Nat.eq_zero_or_pos m with rfl | hm
  · obtain rfl : e = minExponent := h.full.resolve_left (by decide)
    have hzero : ofText? (Numeral.signed negative "0.0".toList) = some (zero negative) := by
      cases negative <;> decide
    rw [if_pos rfl]
    exact hzero
  · rw [if_neg hm.ne']
    exact ofText?_magnitudeText h hm .plain negative

end Binary64

end TabularView
