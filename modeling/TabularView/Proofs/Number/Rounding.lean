import Mathlib.Algebra.Order.Field.Power
import Mathlib.Algebra.Order.Field.Rat
import Mathlib.Tactic.FieldSimp
import Mathlib.Tactic.GCongr
import Mathlib.Tactic.Linarith
import Mathlib.Tactic.NormNum
import Mathlib.Tactic.Positivity
import Mathlib.Tactic.Ring
import TabularView.Number.Binary64

set_option autoImplicit false

/-! # Rounding to binary64 values

A finite value stands for the fractions that are nearer to it than to its neighbours, and for those
in the middle if its mantissa is even (`Represents`). `ofMagnitude` rounds each of these fractions
to the value (`ofMagnitude_eq`), and to an infinity only what is too large
(`ofMagnitude_eq_infinite_iff`). -/

namespace TabularView.Binary64

/-! ## Values -/

theorem IsCanonical.lt {m : Nat} {e : Int} (h : IsCanonical m e) : m < 2 ^ 53 :=
  h.fits

theorem IsCanonical.le_or_eq {m : Nat} {e : Int} (h : IsCanonical m e) :
    2 ^ 52 ≤ m ∨ e = minExponent :=
  h.full

/-- How far down the fractions go that a value stands for, in units of its last bit. Below a power
of two the next value is only half as far away. -/
def reachBelow (m : Nat) (e : Int) : ℚ :=
  if m = 2 ^ 52 ∧ minExponent < e then 1 / 4 else 1 / 2

/-- The fractions that a value stands for. -/
structure Represents (m : Nat) (e : Int) (r : ℚ) : Prop where
  lower_le : (m - reachBelow m e) * 2 ^ e ≤ r
  le_upper : r ≤ (m + 1 / 2) * 2 ^ e
  between_of_odd : m % 2 = 1 → (m - reachBelow m e) * 2 ^ e < r ∧ r < (m + 1 / 2) * 2 ^ e

theorem reachBelow_pos (m : Nat) (e : Int) : 0 < reachBelow m e := by
  unfold reachBelow
  split <;> norm_num

theorem reachBelow_le (m : Nat) (e : Int) : reachBelow m e ≤ 1 / 2 := by
  unfold reachBelow
  split <;> norm_num

theorem Represents.pos {m : Nat} {e : Int} {r : ℚ} (h : Represents m e r) (hm : 0 < m) :
    0 < r := by
  have hm' : (1 : ℚ) ≤ m := by exact_mod_cast hm
  have hreach := reachBelow_le m e
  have hpower : (0 : ℚ) < 2 ^ e := by positivity
  exact (mul_pos (by linarith) hpower).trans_le h.lower_le

/-! ## Powers of two -/

theorem scaleDown_eq (num den : Nat) (e : Int) :
    ((scaleDown num den e).1 : ℚ) / (scaleDown num den e).2 = num / den * 2 ^ (-e) := by
  unfold scaleDown
  split
  · next h =>
      obtain ⟨k, rfl⟩ := Int.eq_ofNat_of_zero_le h
      simp [zpow_neg, div_eq_mul_inv, mul_assoc, mul_comm]
  · next h =>
      obtain ⟨k, hk⟩ := Int.eq_ofNat_of_zero_le (show 0 ≤ -e by omega)
      simp [hk, mul_div_right_comm]

theorem scaleDown_snd_pos {num den : Nat} (h : 0 < den) (e : Int) :
    0 < (scaleDown num den e).2 := by
  unfold scaleDown
  split
  · exact Nat.mul_pos h (Nat.pow_pos (by decide))
  · exact h

theorem ratio_eq (m : Nat) (e : Int) :
    ((ratio m e).1 : ℚ) / (ratio m e).2 = m * 2 ^ e := by
  unfold ratio
  split
  · next h =>
      obtain ⟨k, rfl⟩ := Int.eq_ofNat_of_zero_le h
      simp
  · next h =>
      obtain ⟨k, hk⟩ := Int.eq_ofNat_of_zero_le (show 0 ≤ -e by omega)
      have he : e = -(k : Int) := by omega
      simp [he, zpow_neg, div_eq_mul_inv]

theorem ratio_snd_pos (m : Nat) (e : Int) : 0 < (ratio m e).2 := by
  unfold ratio
  split
  · exact Nat.one_pos
  · exact Nat.pow_pos (by decide)

/-- A fraction scaled down by a power of two is at least one exactly if it is at least the power. -/
theorem scaleDown_le_iff {num den : Nat} (hden : 0 < den) (e : Int) :
    (scaleDown num den e).2 ≤ (scaleDown num den e).1 ↔ (2 : ℚ) ^ e ≤ num / den := by
  have hpos : (0 : ℚ) < (scaleDown num den e).2 := by exact_mod_cast scaleDown_snd_pos hden e
  have hpower : (0 : ℚ) < 2 ^ e := by positivity
  rw [← @Nat.cast_le ℚ, ← one_le_div hpos, scaleDown_eq, zpow_neg, ← div_eq_mul_inv,
    one_le_div hpower]

/-- The order of a fraction is its binary logarithm, rounded down. -/
theorem binaryOrder_spec {num den : Nat} (hnum : 0 < num) (hden : 0 < den) :
    (2 : ℚ) ^ binaryOrder num den ≤ num / den ∧
      (num : ℚ) / den < 2 ^ (binaryOrder num den + 1) := by
  have hden' : (0 : ℚ) < den := by exact_mod_cast hden
  have hnumlow : (2 : ℚ) ^ (Nat.log2 num : Int) ≤ num := by
    exact_mod_cast Nat.log2_self_le hnum.ne'
  have hnumhigh : (num : ℚ) < 2 ^ ((Nat.log2 num : Int) + 1) := by
    exact_mod_cast Nat.lt_log2_self
  have hdenlow : (2 : ℚ) ^ (Nat.log2 den : Int) ≤ den := by
    exact_mod_cast Nat.log2_self_le hden.ne'
  have hdenhigh : (den : ℚ) < 2 ^ ((Nat.log2 den : Int) + 1) := by
    exact_mod_cast Nat.lt_log2_self
  have hlow : (2 : ℚ) ^ ((Nat.log2 num : Int) - Nat.log2 den - 1) ≤ num / den := by
    rw [le_div_iff₀ hden']
    calc (2 : ℚ) ^ ((Nat.log2 num : Int) - Nat.log2 den - 1) * den
        ≤ 2 ^ ((Nat.log2 num : Int) - Nat.log2 den - 1) * 2 ^ ((Nat.log2 den : Int) + 1) := by
          gcongr
      _ = 2 ^ (Nat.log2 num : Int) := by
          rw [← zpow_add₀ two_ne_zero]
          congr 1
          ring
      _ ≤ num := hnumlow
  have hhigh : (num : ℚ) / den < 2 ^ ((Nat.log2 num : Int) - Nat.log2 den + 1) := by
    rw [div_lt_iff₀ hden']
    calc (num : ℚ) < 2 ^ ((Nat.log2 num : Int) + 1) := hnumhigh
      _ = 2 ^ ((Nat.log2 num : Int) - Nat.log2 den + 1) * 2 ^ (Nat.log2 den : Int) := by
          rw [← zpow_add₀ two_ne_zero]
          congr 1
          ring
      _ ≤ 2 ^ ((Nat.log2 num : Int) - Nat.log2 den + 1) * den := by gcongr
  unfold binaryOrder
  dsimp only
  split
  · next h => exact ⟨(scaleDown_le_iff hden _).1 h, hhigh⟩
  · next h =>
      refine ⟨hlow, ?_⟩
      rw [sub_add_cancel]
      exact lt_of_not_ge (mt (scaleDown_le_iff hden _).2 h)

/-! ## Rounding -/

/-- A fraction within half of a whole number is rounded to it; one in the middle is if the number is
even. -/
theorem roundHalfEven_eq {num den m : Nat} (hden : 0 < den) (hlow : (m : ℚ) - 1 / 2 ≤ num / den)
    (hhigh : (num : ℚ) / den ≤ m + 1 / 2)
    (hodd : m % 2 = 1 → (m : ℚ) - 1 / 2 < num / den ∧ (num : ℚ) / den < m + 1 / 2) :
    roundHalfEven num den = m := by
  have hden' : (0 : ℚ) < den := by exact_mod_cast hden
  have hlow : 2 * m * den ≤ 2 * num + den := by
    rw [le_div_iff₀ hden'] at hlow
    have hcast : (2 * m * den : ℚ) ≤ 2 * num + den := by linarith
    exact_mod_cast hcast
  have hhigh : 2 * num ≤ 2 * m * den + den := by
    rw [div_le_iff₀ hden'] at hhigh
    have hcast : (2 * num : ℚ) ≤ 2 * m * den + den := by linarith
    exact_mod_cast hcast
  have hodd : m % 2 = 1 → 2 * m * den < 2 * num + den ∧ 2 * num < 2 * m * den + den := by
    intro h
    obtain ⟨hlow, hhigh⟩ := hodd h
    rw [lt_div_iff₀ hden'] at hlow
    rw [div_lt_iff₀ hden'] at hhigh
    have hlowcast : (2 * m * den : ℚ) < 2 * num + den := by linarith
    have hhighcast : (2 * num : ℚ) < 2 * m * den + den := by linarith
    exact ⟨by exact_mod_cast hlowcast, by exact_mod_cast hhighcast⟩
  have hnum := Nat.div_add_mod num den
  have hrest := Nat.mod_lt num hden
  unfold roundHalfEven
  generalize num / den = q at hnum ⊢
  generalize num % den = r at hnum hrest ⊢
  subst hnum
  -- the number is the quotient or the next one
  have hle : q ≤ m := by
    by_contra hlt
    have hmul := Nat.mul_le_mul_left den (show m + 1 ≤ q by omega)
    nlinarith
  have hge : m ≤ q + 1 := by
    by_contra hlt
    have hmul := Nat.mul_le_mul_left den (show q + 2 ≤ m by omega)
    nlinarith
  obtain rfl | rfl : m = q ∨ m = q + 1 := by omega
  · have hproduct : 2 * m * den = 2 * (den * m) := by ring
    grind
  · have hproduct : 2 * (q + 1) * den = 2 * (den * q) + 2 * den := by ring
    grind

/-- The exponent that a fraction is rounded with. -/
def targetExponent (num den : Nat) : Int :=
  max minExponent (binaryOrder num den - 52)

section Rounding

variable {m num den : Nat} {e : Int}

theorem roundedParts_of_roundHalfEven_eq (hm : m < 2 ^ 53) (htarget : targetExponent num den = e)
    (hround : roundHalfEven (scaleDown num den e).1 (scaleDown num den e).2 = m) :
    roundedParts num den = (m, e) := by
  have htarget : max minExponent (binaryOrder num den - (mantissaBits - 1)) = e := htarget
  have hfits : m ≠ Nat.pow 2 mantissaBits := hm.ne
  simp only [roundedParts, htarget, hround, hfits, if_false]

/-- What is rounded up to one bit more than there is room for is a power of two. -/
theorem roundedParts_of_roundHalfEven_eq_power (htarget : targetExponent num den = e)
    (hround : roundHalfEven (scaleDown num den e).1 (scaleDown num den e).2 = 2 ^ 53) :
    roundedParts num den = (2 ^ 52, e + 1) := by
  have htarget : max minExponent (binaryOrder num den - (mantissaBits - 1)) = e := htarget
  have hover : (2 : Nat) ^ 53 = Nat.pow 2 mantissaBits := rfl
  have hhalf : Nat.pow 2 (mantissaBits - 1) = 2 ^ 52 := rfl
  simp only [roundedParts, htarget, hround, hover, if_true, hhalf]

theorem binaryOrder_lt {k : Int} (hnum : 0 < num) (hden : 0 < den)
    (h : (num : ℚ) / den < 2 ^ k) : binaryOrder num den < k :=
  (zpow_lt_zpow_iff_right₀ one_lt_two).1 ((binaryOrder_spec hnum hden).1.trans_lt h)

theorem le_binaryOrder {k : Int} (hnum : 0 < num) (hden : 0 < den)
    (h : (2 : ℚ) ^ k ≤ num / den) : k ≤ binaryOrder num den :=
  Int.lt_add_one_iff.1
    ((zpow_lt_zpow_iff_right₀ one_lt_two).1 (h.trans_lt (binaryOrder_spec hnum hden).2))

/-- A fraction that a value stands for has the exponent of the value, or the one below if it is less
than the value and the value is a power of two. -/
theorem targetExponent_of_represents (h : IsCanonical m e) (hnum : 0 < num) (hden : 0 < den)
    (hr : Represents m e (num / den)) :
    targetExponent num den = e ∨
      targetExponent num den = e - 1 ∧ m = 2 ^ 52 ∧ (num : ℚ) / den < m * 2 ^ e := by
  have hlt := h.lt
  have hmin := h.minExponent_le
  have hfull := h.le_or_eq
  obtain ⟨hlower, hupper, -⟩ := hr
  have hpower : (0 : ℚ) < 2 ^ e := by positivity
  have hshift : ∀ n : Nat, (2 : ℚ) ^ (e + n) = 2 ^ n * 2 ^ e := by
    intro n
    rw [zpow_add₀ two_ne_zero, zpow_natCast, mul_comm]
  have hbelow : binaryOrder num den < e + 53 := by
    refine binaryOrder_lt hnum hden (hupper.trans_lt ?_)
    have hroom : (m : ℚ) + 1 / 2 < 2 ^ 53 := by
      have hsucc : (m : ℚ) + 1 ≤ 2 ^ 53 := by exact_mod_cast hlt
      linarith
    exact (mul_lt_mul_of_pos_right hroom hpower).trans_eq (hshift 53).symm
  have htarget : (2 : ℚ) ^ 52 * 2 ^ e ≤ num / den → targetExponent num den = e := by
    intro hle
    have habove := le_binaryOrder hnum hden ((hshift 52).trans_le hle)
    unfold targetExponent
    omega
  rcases hmin.eq_or_lt with rfl | hmin
  · left
    unfold targetExponent
    omega
  · have hfull : 2 ^ 52 ≤ m := hfull.resolve_right hmin.ne'
    rcases hfull.eq_or_lt with hhalf | hmore
    · by_cases hless : (num : ℚ) / den < m * 2 ^ e
      · right
        refine ⟨?_, hhalf.symm, hless⟩
        have hhalf : (m : ℚ) = 2 ^ 52 := by exact_mod_cast hhalf.symm
        have hreach := reachBelow_le m e
        rw [hhalf] at hless hlower
        have horder := binaryOrder_lt hnum hden (hless.trans_eq (hshift 52).symm)
        have habove : e + 51 ≤ binaryOrder num den := by
          refine le_binaryOrder hnum hden (((hshift 51).trans_le ?_).trans hlower)
          gcongr
          linarith
        push_cast at horder
        unfold targetExponent
        omega
      · left
        refine htarget (le_trans ?_ (not_lt.1 hless))
        gcongr
        exact_mod_cast hhalf.le
    · left
      refine htarget (le_trans ?_ hlower)
      have hsucc : (2 : ℚ) ^ 52 + 1 ≤ m := by exact_mod_cast hmore
      have hreach : reachBelow m e = 1 / 2 := if_neg fun h => hmore.ne' h.1
      rw [hreach]
      gcongr
      linarith

end Rounding

/-- A fraction that a value stands for is rounded to the parts of the value. -/
theorem roundedParts_eq {m num den : Nat} {e : Int} (h : IsCanonical m e) (hnum : 0 < num)
    (hden : 0 < den) (hr : Represents m e (num / den)) : roundedParts num den = (m, e) := by
  have hscaled : ∀ k : Int, 0 < (scaleDown num den k).2 := scaleDown_snd_pos hden
  have hpower : (0 : ℚ) < 2 ^ e := by positivity
  rcases targetExponent_of_represents h hnum hden hr with htarget | ⟨htarget, rfl, hless⟩
  · refine roundedParts_of_roundHalfEven_eq h.lt htarget ?_
    have hreach := reachBelow_le m e
    obtain ⟨hlower, hupper, hodd⟩ := hr
    refine roundHalfEven_eq (hscaled e) ?_ ?_ ?_
    all_goals rw [scaleDown_eq, zpow_neg, ← div_eq_mul_inv]
    · rw [le_div_iff₀ hpower]
      refine le_trans ?_ hlower
      gcongr
    · rwa [div_le_iff₀ hpower]
    · intro hm
      obtain ⟨hlower, hupper⟩ := hodd hm
      rw [lt_div_iff₀ hpower, div_lt_iff₀ hpower]
      refine ⟨lt_of_le_of_lt ?_ hlower, hupper⟩
      gcongr
  · rw [← Int.sub_add_cancel e 1]
    refine roundedParts_of_roundHalfEven_eq_power htarget ?_
    have hmin : minExponent < e := by
      have hle : minExponent ≤ targetExponent num den := le_max_left _ _
      omega
    have hreach : reachBelow (2 ^ 52) e = 1 / 4 := if_pos ⟨rfl, hmin⟩
    have hlower := hr.lower_le
    rw [hreach] at hlower
    have hdouble : (num : ℚ) / den * 2 ^ (-(e - 1)) = 2 * (num / den) / 2 ^ e := by
      rw [neg_sub, zpow_sub₀ two_ne_zero, zpow_one]
      ring
    push_cast at hlower hless
    refine roundHalfEven_eq (hscaled _) ?_ ?_ fun hodd => absurd hodd (by decide)
    all_goals rw [scaleDown_eq, hdouble]; push_cast
    · rw [le_div_iff₀ hpower]
      linarith
    · rw [div_le_iff₀ hpower]
      linarith

/-- A fraction that a value stands for is rounded to the value. -/
theorem ofMagnitude_eq {m num den : Nat} {e : Int} (h : IsCanonical m e) (hnum : 0 < num)
    (hden : 0 < den) (hr : Represents m e (num / den)) (negative : Bool) :
    ofMagnitude negative num den = .finite negative m e h := by
  rw [ofMagnitude, roundedParts_eq h hnum hden hr]
  exact dif_pos h

/-! ## What comes out -/

theorem le_roundHalfEven (num den : Nat) : num / den ≤ roundHalfEven num den := by
  unfold roundHalfEven
  grind

/-- With the exponent that a fraction is rounded with, its mantissa has at most one more than the
largest one, and all its bits unless the exponent is the least. -/
theorem roundHalfEven_scaleDown {num den : Nat} (hnum : 0 < num) (hden : 0 < den) {e : Int}
    (htarget : targetExponent num den = e) :
    roundHalfEven (scaleDown num den e).1 (scaleDown num den e).2 ≤ 2 ^ 53 ∧
      (2 ^ 52 ≤ roundHalfEven (scaleDown num den e).1 (scaleDown num den e).2 ∨
        e = minExponent) := by
  obtain ⟨hlow, hhigh⟩ := binaryOrder_spec hnum hden
  have hscaled : 0 < (scaleDown num den e).2 := scaleDown_snd_pos hden e
  have hscaled' : (0 : ℚ) < (scaleDown num den e).2 := by exact_mod_cast hscaled
  have hpower : (0 : ℚ) < 2 ^ e := by positivity
  have hvalue := scaleDown_eq num den e
  rw [zpow_neg, ← div_eq_mul_inv] at hvalue
  unfold targetExponent at htarget
  constructor
  · have hless : (scaleDown num den e).1 < 2 ^ 53 * (scaleDown num den e).2 := by
      have hquotient : ((scaleDown num den e).1 : ℚ) / (scaleDown num den e).2 < 2 ^ 53 := by
        rw [hvalue, div_lt_iff₀ hpower, ← zpow_natCast, ← zpow_add₀ two_ne_zero]
        exact hhigh.trans_le (zpow_le_zpow_right₀ one_le_two (by push_cast; omega))
      rw [div_lt_iff₀ hscaled'] at hquotient
      exact_mod_cast hquotient
    have hquotient := Nat.div_lt_of_lt_mul (by rwa [mul_comm] at hless)
    exact (roundHalfEven_le _ _).trans hquotient
  · by_cases he : e = minExponent
    · exact .inr he
    · refine .inl (le_trans ?_ (le_roundHalfEven _ _))
      rw [Nat.le_div_iff_mul_le hscaled]
      have hquotient : (2 : ℚ) ^ 52 ≤ (scaleDown num den e).1 / (scaleDown num den e).2 := by
        rw [hvalue, le_div_iff₀ hpower, ← zpow_natCast, ← zpow_add₀ two_ne_zero]
        exact (zpow_le_zpow_right₀ one_le_two (by push_cast; omega)).trans hlow
      rw [le_div_iff₀ hscaled'] at hquotient
      exact_mod_cast hquotient

/-- The parts that a fraction is rounded to are those of a value, unless the exponent is too
large. -/
theorem isCanonical_roundedParts_iff {num den : Nat} (hnum : 0 < num) (hden : 0 < den) :
    IsCanonical (roundedParts num den).1 (roundedParts num den).2 ↔
      (roundedParts num den).2 ≤ maxExponent := by
  refine ⟨IsCanonical.le_maxExponent, fun hmax => ?_⟩
  obtain ⟨e, htarget⟩ : ∃ e, targetExponent num den = e := ⟨_, rfl⟩
  have hmin : minExponent ≤ e := htarget ▸ le_max_left _ _
  obtain ⟨hle, hfull⟩ := roundHalfEven_scaleDown hnum hden htarget
  rcases hle.eq_or_lt with hround | hless
  · -- a mantissa rounded up beyond its bits becomes a power of two with the next exponent
    rw [roundedParts_of_roundHalfEven_eq_power htarget hround] at hmax ⊢
    have hfits : 2 ^ 52 < Nat.pow 2 mantissaBits := by decide
    exact ⟨hfits, Int.le_add_one hmin, hmax, .inl le_rfl⟩
  · rw [roundedParts_of_roundHalfEven_eq hless htarget rfl] at hmax ⊢
    exact ⟨hless, hmin, hmax, hfull⟩

/-- Only a fraction that is too large for every value becomes infinite. -/
theorem ofMagnitude_eq_infinite_iff (negative : Bool) {num den : Nat} (hnum : 0 < num)
    (hden : 0 < den) :
    ofMagnitude negative num den = .infinite negative ↔
      maxExponent < (roundedParts num den).2 := by
  have hparts : ofMagnitude negative num den =
      ofParts negative (roundedParts num den).1 (roundedParts num den).2 := rfl
  rw [← not_le, ← isCanonical_roundedParts_iff hnum hden, hparts, ofParts]
  split
  · next h => simp [h]
  · next h => simp [h]

end TabularView.Binary64
