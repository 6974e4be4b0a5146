import TabularView.Number.Shortest
import TabularView.Proofs.Number.Rounding

set_option autoImplicit false

/-! # The shortest decimal of a value

The decimal that a value is written as is one of the fractions that the value stands for
(`represents_shortest`). The search for it always succeeds: on a grid of seventeen digits the
distance between two points is less than the reach of any value. -/

namespace TabularView.Binary64

/-! ## Decimal places -/

theorem decimalLength_zero : decimalLength 0 = 0 := by
  rw [decimalLength, if_pos rfl]

theorem decimalLength_spec {n : Nat} (h : 0 < n) :
    10 ^ decimalLength n ≤ 10 * n ∧ n < 10 ^ decimalLength n := by
  induction n using Nat.strong_induction_on with
  | _ n ih =>
      rw [decimalLength, if_neg h.ne']
      rcases Nat.eq_zero_or_pos (n / 10) with hzero | hpos
      · rw [hzero]
        simp only [decimalLength_zero, Nat.zero_add, Nat.pow_one]
        omega
      · obtain ⟨hlow, hhigh⟩ := ih (n / 10) (by omega) hpos
        rw [Nat.pow_succ]
        omega

theorem decimalLength_mono {a b : Nat} (h : a ≤ b) : decimalLength a ≤ decimalLength b := by
  rcases Nat.eq_zero_or_pos a with rfl | ha
  · rw [decimalLength_zero]
    exact Nat.zero_le _
  · by_contra hlt
    obtain ⟨hlow, -⟩ := decimalLength_spec ha
    obtain ⟨-, hhigh⟩ := decimalLength_spec (ha.trans_le h)
    have hpower := Nat.pow_le_pow_right (show 0 < 10 by decide) (not_le.1 hlt)
    rw [Nat.pow_succ] at hpower
    omega

theorem stripZeros_spec (fuel n : Nat) :
    (stripZeros fuel n).1 * 10 ^ (stripZeros fuel n).2 = n := by
  induction fuel generalizing n with
  | zero => simp [stripZeros]
  | succ fuel ih =>
      unfold stripZeros
      split
      · next h =>
          have hrest := ih (n / 10)
          simp only [Nat.pow_succ, ← Nat.mul_assoc, hrest]
          omega
      · simp

namespace Rounding

variable {r : Rounding}

/-- The power of ten that the digits of a value start with is not above the value. -/
theorem decimalOrder_le (hvalue : 0 < r.value) (hden : 0 < r.den) :
    (10 : ℚ) ^ r.decimalOrder ≤ r.value / r.den := by
  have hden' : (0 : ℚ) < r.den := by exact_mod_cast hden
  rw [le_div_iff₀ hden']
  unfold decimalOrder
  split
  · next h =>
      have hpos : 0 < r.value / r.den := Nat.div_pos h hden
      obtain ⟨hlow, -⟩ := decimalLength_spec hpos
      have hquotient : (r.value / r.den : Nat) * r.den ≤ r.value := Nat.div_mul_le_self ..
      have hlow' : (10 : ℚ) ^ decimalLength (r.value / r.den) ≤ 10 * (r.value / r.den : Nat) := by
        exact_mod_cast hlow
      have hquotient' : ((r.value / r.den : Nat) : ℚ) * r.den ≤ r.value := by
        exact_mod_cast hquotient
      refine le_trans ?_ hquotient'
      gcongr
      rw [zpow_sub₀ (by norm_num), zpow_natCast, zpow_one, div_le_iff₀ (by norm_num)]
      linarith
  · next h =>
      have hlength := decimalLength_mono (not_le.1 h).le
      obtain ⟨hlow, -⟩ := decimalLength_spec hvalue
      obtain ⟨-, hhigh⟩ := decimalLength_spec hden
      obtain ⟨k, hk⟩ := Nat.exists_eq_add_of_le hlength
      rw [hk, Nat.add_sub_cancel_left]
      have hpower : (0 : ℚ) < 10 ^ k := by positivity
      dsimp only
      split
      · next h =>
          have hcast : (r.den : ℚ) ≤ r.value * 10 ^ k := by exact_mod_cast h
          rw [zpow_neg, zpow_natCast, inv_mul_le_iff₀ hpower, mul_comm]
          exact hcast
      · have hnat : r.den ≤ r.value * 10 ^ (k + 1) := by
          rw [hk, Nat.pow_add] at hhigh
          have hmul := Nat.mul_le_mul_right (10 ^ k) hlow
          rw [Nat.pow_succ]
          nlinarith
        have hcast : (r.den : ℚ) ≤ r.value * 10 ^ (k + 1) := by exact_mod_cast hnat
        rw [← neg_add', zpow_neg, inv_mul_le_iff₀ (by positivity), mul_comm]
        exact_mod_cast hcast

/-! ## Grids -/

theorem inUnitsOf_den_pos (hden : 0 < r.den) (power : Int) : 0 < (r.inUnitsOf power).den := by
  unfold inUnitsOf
  split
  · exact Nat.mul_pos hden (Nat.pow_pos (by decide))
  · exact hden

/-- In units of a power of ten, value and ends are that much smaller. -/
theorem inUnitsOf_eq (r : Rounding) (power : Int) :
    ((r.inUnitsOf power).value : ℚ) / (r.inUnitsOf power).den = r.value / r.den / 10 ^ power ∧
      ((r.inUnitsOf power).lower : ℚ) / (r.inUnitsOf power).den = r.lower / r.den / 10 ^ power ∧
      ((r.inUnitsOf power).upper : ℚ) / (r.inUnitsOf power).den = r.upper / r.den / 10 ^ power ∧
      (r.inUnitsOf power).closed = r.closed := by
  unfold inUnitsOf
  split
  · next h =>
      obtain ⟨k, rfl⟩ := Int.eq_ofNat_of_zero_le h
      simp [div_div]
  · next h =>
      obtain ⟨k, hk⟩ := Int.eq_ofNat_of_zero_le (show 0 ≤ -power by omega)
      have hpower : power = -(k : Int) := by omega
      simp [hpower, zpow_neg, mul_div_right_comm]

theorem contains_iff (hden : 0 < r.den) (n : Nat) :
    r.contains n = true ↔ (r.lower : ℚ) / r.den ≤ n ∧ (n : ℚ) ≤ r.upper / r.den ∧
      (r.closed = false → (r.lower : ℚ) / r.den < n ∧ (n : ℚ) < r.upper / r.den) := by
  have hden' : (0 : ℚ) < r.den := by exact_mod_cast hden
  rw [div_le_iff₀ hden', le_div_iff₀ hden', div_lt_iff₀ hden', lt_div_iff₀ hden']
  unfold contains
  dsimp only
  split
  · next hclosed =>
      simp only [hclosed, ← Nat.cast_mul, Nat.cast_le, Nat.cast_lt, Bool.and_eq_true,
        decide_eq_true_eq, reduceCtorEq, false_imp_iff, and_true]
  · next hclosed =>
      simp only [hclosed, ← Nat.cast_mul, Nat.cast_le, Nat.cast_lt, Bool.and_eq_true,
        decide_eq_true_eq, true_imp_iff]
      omega

theorem contains_of_lt {n : Nat} (hlower : r.lower < n * r.den) (hupper : n * r.den < r.upper) :
    r.contains n = true := by
  unfold contains
  dsimp only
  split
  · simp [hlower.le, hupper.le]
  · simp [hlower, hupper]

theorem contains_of_nearestWhole? {n : Nat} (h : r.nearestWhole? = some n) :
    r.contains n = true := by
  unfold nearestWhole? at h
  dsimp only at h
  split at h
  · cases h
  · next hbelow _ => exact Option.some.inj h ▸ hbelow
  · next _ habove => exact Option.some.inj h ▸ habove
  · next hbelow habove =>
      split at h
      · exact Option.some.inj h ▸ hbelow
      · exact Option.some.inj h ▸ habove

/-- If the points of a grid are nearer to each other than the ends of the interval, one of the two
next to the value is in the interval. -/
theorem nearestWhole?_ne_none (hden : 0 < r.den) (hlower : r.lower < r.value)
    (hupper : r.value < r.upper) (hwide : r.lower + r.den < r.upper) : r.nearestWhole? ≠ none := by
  have hdivision := Nat.div_add_mod r.value r.den
  have hrest := Nat.mod_lt r.value hden
  rw [Nat.mul_comm] at hdivision
  have hone : r.contains (r.value / r.den) = true ∨ r.contains (r.value / r.den + 1) = true := by
    by_cases hbelow : r.lower < r.value / r.den * r.den
    · left
      exact contains_of_lt hbelow (by omega)
    · right
      refine contains_of_lt ?_ ?_
      · rw [Nat.add_mul]
        omega
      · rw [Nat.add_mul]
        omega
  unfold nearestWhole?
  dsimp only
  split
  · next hbelow habove => simp [hbelow, habove] at hone
  · simp
  · simp
  · split <;> simp

theorem contains_of_shortestFrom {order power : Int} {fuel count n : Nat}
    (h : r.shortestFrom order fuel count = some (n, power)) :
    (r.inUnitsOf power).contains n = true := by
  induction fuel generalizing count with
  | zero => cases h
  | succ fuel ih =>
      unfold shortestFrom at h
      dsimp only at h
      split at h
      · next hnearest =>
          obtain ⟨rfl, rfl⟩ := Prod.mk.inj (Option.some.inj h)
          exact contains_of_nearestWhole? hnearest
      · exact ih h

/-- The search does not miss a grid. -/
theorem shortestFrom_ne_none {order : Int} {fuel count : Nat} {k : Nat} (hk : k < fuel)
    (h : (r.inUnitsOf (order + 1 - (count + k : Nat))).nearestWhole? ≠ none) :
    r.shortestFrom order fuel count ≠ none := by
  induction fuel generalizing count k with
  | zero => omega
  | succ fuel ih =>
      unfold shortestFrom
      dsimp only
      split
      · simp
      · next hnone =>
          cases k with
          | zero => exact absurd hnone h
          | succ k =>
              refine ih (Nat.lt_of_succ_lt_succ hk) ?_
              rwa [Nat.add_assoc, Nat.add_comm 1]

end Rounding

/-! ## The interval of a value -/

section Value

variable {m : Nat} {e : Int}

theorem rounding_spec (e : Int) (hm : 0 < m) :
    0 < (rounding m e).den ∧
      ((rounding m e).value : ℚ) / (rounding m e).den = m * 2 ^ e ∧
      ((rounding m e).lower : ℚ) / (rounding m e).den = (m - reachBelow m e) * 2 ^ e ∧
      ((rounding m e).upper : ℚ) / (rounding m e).den = (m + 1 / 2) * 2 ^ e ∧
      ((rounding m e).closed = false ↔ m % 2 = 1) := by
  have hden := ratio_snd_pos 1 e
  have hden' : ((ratio 1 e).2 : ℚ) ≠ 0 := by exact_mod_cast hden.ne'
  have hpower := ratio_eq 1 e
  rw [Nat.cast_one, one_mul] at hpower
  have hhalf : Nat.pow 2 (mantissaBits - 1) = 2 ^ 52 := rfl
  refine ⟨Nat.mul_pos (by decide) hden, ?_, ?_, ?_, ?_⟩
  · show ((4 * m * (ratio 1 e).1 : Nat) : ℚ) / (4 * (ratio 1 e).2 : Nat) = _
    rw [← hpower]
    push_cast
    field_simp
  · show (((if _ then 4 * m - 1 else 4 * m - 2) * (ratio 1 e).1 : Nat) : ℚ) /
      (4 * (ratio 1 e).2 : Nat) = _
    rw [← hpower, reachBelow, hhalf]
    split
    · rw [Nat.cast_mul, Nat.cast_sub (by omega)]
      push_cast
      field_simp
    · rw [Nat.cast_mul, Nat.cast_sub (by omega)]
      push_cast
      field_simp
      ring
  · show (((4 * m + 2) * (ratio 1 e).1 : Nat) : ℚ) / (4 * (ratio 1 e).2 : Nat) = _
    rw [← hpower]
    push_cast
    field_simp
    ring
  · show decide (m % 2 = 0) = false ↔ _
    rw [decide_eq_false_iff_not]
    omega

/-- The points of a decimal grid in the interval are those that the value stands for. -/
theorem contains_inUnitsOf_iff (e : Int) (hm : 0 < m) (power : Int) (n : Nat) :
    ((rounding m e).inUnitsOf power).contains n = true ↔ Represents m e (n * 10 ^ power) := by
  obtain ⟨hden, -, hlower, hupper, hclosed⟩ := rounding_spec e hm
  obtain ⟨-, hlower', hupper', hclosed'⟩ := (rounding m e).inUnitsOf_eq power
  have hpower : (0 : ℚ) < 10 ^ power := by positivity
  rw [Rounding.contains_iff (Rounding.inUnitsOf_den_pos hden power), hlower', hupper', hclosed',
    hlower, hupper, hclosed, div_le_iff₀ hpower, le_div_iff₀ hpower, div_lt_iff₀ hpower,
    lt_div_iff₀ hpower]
  exact ⟨fun ⟨hlow, hhigh, hodd⟩ => ⟨hlow, hhigh, hodd⟩,
    fun ⟨hlow, hhigh, hodd⟩ => ⟨hlow, hhigh, hodd⟩⟩

/-- A grid of seventeen digits has a point in the interval of any value. -/
theorem nearestWhole?_seventeen (h : IsCanonical m e) (hm : 0 < m) :
    ((rounding m e).inUnitsOf ((rounding m e).decimalOrder - 16)).nearestWhole? ≠ none := by
  obtain ⟨hden, hvalue, hlower, hupper, -⟩ := rounding_spec e hm
  have hm' : (0 : ℚ) < m := by exact_mod_cast hm
  have hpower : (0 : ℚ) < 2 ^ e := by positivity
  have hvaluepos : 0 < (rounding m e).value := by
    refine Nat.pos_of_ne_zero fun hzero => ?_
    rw [hzero, Nat.cast_zero, zero_div] at hvalue
    exact (mul_pos hm' hpower).ne hvalue
  have horder := Rounding.decimalOrder_le hvaluepos hden
  generalize (rounding m e).decimalOrder = order at *
  -- the distance between two points against the reach of the value
  have hgrid : (0 : ℚ) < 10 ^ (order - 16) := by positivity
  have hsmall : (10 : ℚ) ^ (order - 16) * 10 ^ 16 ≤ m * 2 ^ e := by
    rw [← hvalue, ← zpow_natCast, ← zpow_add₀ (by norm_num)]
    simpa using horder
  have hwide : (10 : ℚ) ^ (order - 16) < (reachBelow m e + 1 / 2) * 2 ^ e := by
    unfold reachBelow
    split
    · next hhalf =>
        have hm52 : (m : ℚ) = 2 ^ 52 := by exact_mod_cast hhalf.1
        rw [hm52] at hsmall
        linarith
    · have hm53 : (m : ℚ) < 2 ^ 53 := by exact_mod_cast h.lt
      have hbound : (m : ℚ) * 2 ^ e < 2 ^ 53 * 2 ^ e := by gcongr
      linarith
  have hreach := reachBelow_pos m e
  obtain ⟨hvalue', hlower', hupper', -⟩ := (rounding m e).inUnitsOf_eq (order - 16)
  have hden' := Rounding.inUnitsOf_den_pos hden (order - 16)
  have hdenq : (0 : ℚ) < ((rounding m e).inUnitsOf (order - 16)).den := by exact_mod_cast hden'
  rw [hvalue] at hvalue'
  rw [hlower] at hlower'
  rw [hupper] at hupper'
  refine Rounding.nearestWhole?_ne_none hden' ?_ ?_ ?_
  · rw [← @Nat.cast_lt ℚ, ← div_lt_div_iff_of_pos_right hdenq, hlower', hvalue',
      div_lt_div_iff_of_pos_right hgrid]
    gcongr
    linarith
  · rw [← @Nat.cast_lt ℚ, ← div_lt_div_iff_of_pos_right hdenq, hupper', hvalue',
      div_lt_div_iff_of_pos_right hgrid]
    gcongr
    linarith
  · rw [← @Nat.cast_lt ℚ, ← div_lt_div_iff_of_pos_right hdenq, Nat.cast_add, add_div,
      div_self hdenq.ne', hlower', hupper', ← lt_sub_iff_add_lt', ← sub_div, one_lt_div hgrid]
    linarith

/-- A value is written as a decimal that it stands for. -/
theorem represents_shortest (h : IsCanonical m e) (hm : 0 < m) :
    0 < (shortest m e).1 ∧ Represents m e ((shortest m e).1 * 10 ^ (shortest m e).2) := by
  have hfound : (rounding m e).shortestFrom (rounding m e).decimalOrder 17 1 ≠ none := by
    refine Rounding.shortestFrom_ne_none (k := 16) (by decide) ?_
    have hplace : (rounding m e).decimalOrder + 1 - ((1 + 16 : Nat) : Int) =
        (rounding m e).decimalOrder - 16 := by
      push_cast
      ring
    rw [hplace]
    exact nearestWhole?_seventeen h hm
  obtain ⟨⟨n, power⟩, hn⟩ := Option.ne_none_iff_exists'.1 hfound
  have hr := (contains_inUnitsOf_iff e hm power n).1 (Rounding.contains_of_shortestFrom hn)
  have hstrip := stripZeros_spec 17 n
  have hshortest : shortest m e = ((stripZeros 17 n).1, power + (stripZeros 17 n).2) := by
    simp only [shortest, hn]
  rw [hshortest]
  have hvalue : ((stripZeros 17 n).1 : ℚ) * 10 ^ (power + ((stripZeros 17 n).2 : Int)) =
      n * 10 ^ power := by
    rw [zpow_add₀ (by norm_num), zpow_natCast, mul_left_comm, mul_comm (10 ^ power : ℚ)]
    congr 1
    exact_mod_cast hstrip
  refine ⟨Nat.pos_of_ne_zero fun hzero => ?_, ?_⟩
  · rw [hzero, Nat.cast_zero, zero_mul] at hvalue
    exact (hr.pos hm).ne hvalue
  · show Represents m e (((stripZeros 17 n).1 : ℚ) * 10 ^ (power + ((stripZeros 17 n).2 : Int)))
    rw [hvalue]
    exact hr

end Value

end TabularView.Binary64
