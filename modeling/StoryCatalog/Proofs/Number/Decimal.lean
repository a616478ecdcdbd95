import StoryCatalog.Number.Decimal
import StoryCatalog.Proofs.Number.Rounding

/-!
# Decimals as binary64 numbers

The number that a decimal is rounded to depends on its value alone, however its digits and its power
of ten are chosen: powers far beyond the range are not computed, but this makes no difference to
decimals that come to a finite number other than zero (`ofDecimal_congr`).
-/

namespace StoryCatalog.Binary64

variable {negative : Bool} {digits : ℕ} {exponent : ℤ}

/-- The value of a decimal. -/
def decimalValue (digits : ℕ) (exponent : ℤ) : ℚ := digits * 10 ^ exponent

/-- The estimate of a decimal's power of ten by which powers far beyond the range are recognised. -/
def magnitude (digits : ℕ) (exponent : ℤ) : ℤ := (digits.log2 : ℤ) * 30103 / 100000 + exponent

theorem decimalValue_pos (hdigits : digits ≠ 0) : 0 < decimalValue digits exponent := by
  have hpos : 0 < digits := Nat.pos_of_ne_zero hdigits
  unfold decimalValue
  positivity

/-- Within the range, a decimal is rounded by its value. -/
theorem ofDecimal_eq_rounded (hdigits : digits ≠ 0) (hlow : -400 ≤ magnitude digits exponent)
    (hhigh : magnitude digits exponent ≤ 320) :
    ofDecimal negative digits exponent = rounded negative (decimalValue digits exponent) := by
  have hpos : 0 < digits := Nat.pos_of_ne_zero hdigits
  unfold magnitude at hlow hhigh
  unfold ofDecimal decimalValue
  dsimp only
  rw [if_neg hdigits, if_neg (by omega), if_neg (by omega)]
  simp only [Nat.pow_eq]
  split
  · next he =>
    obtain ⟨j, hj⟩ : ∃ j : ℕ, -exponent = j := ⟨(-exponent).toNat, by omega⟩
    rw [hj, Int.toNat_natCast, ofQuotient_eq_rounded hpos (by positivity),
      show exponent = -(j : ℤ) by omega, zpow_neg, zpow_natCast, ← div_eq_mul_inv]
    push_cast
    rfl
  · next he =>
    obtain ⟨j, rfl⟩ : ∃ j : ℕ, exponent = j := ⟨exponent.toNat, by omega⟩
    rw [Int.toNat_natCast, ofQuotient_eq_rounded (by positivity) Nat.one_pos, zpow_natCast]
    push_cast
    rw [div_one]

/-! ### The estimate of the power of ten -/

private theorem two_pow_le_ten_pow (j : ℕ) : (2 : ℚ) ^ (93 * j) ≤ 10 ^ (28 * j) := by
  rw [pow_mul, pow_mul]
  exact pow_le_pow_left₀ (by positivity) (by norm_num) j

private theorem ten_pow_le_two_pow (j : ℕ) : (10 : ℚ) ^ (31 * j) ≤ 2 ^ (103 * j) := by
  rw [pow_mul, pow_mul]
  exact pow_le_pow_left₀ (by positivity) (by norm_num) j

private theorem lt_of_two_pow_lt {a b : ℕ} (h : (2 : ℚ) ^ a < 2 ^ b) : a < b :=
  (pow_lt_pow_iff_right₀ (by norm_num)).mp h

private theorem magnitude_le (hdigits : digits ≠ 0) (hsize : digits.log2 ≤ 100000)
    (h : decimalValue digits exponent < 2 ^ (1024 : ℤ)) : magnitude digits exponent ≤ 320 := by
  have hlog : (2 : ℚ) ^ digits.log2 ≤ digits := by exact_mod_cast Nat.log2_self_le hdigits
  unfold decimalValue at h
  unfold magnitude
  rcases le_or_gt 0 exponent with he | he
  · obtain ⟨j, rfl⟩ : ∃ j : ℕ, exponent = j := ⟨exponent.toNat, by omega⟩
    rw [zpow_natCast] at h
    have hlt : (2 : ℚ) ^ digits.log2 * 10 ^ j < 2 ^ 1024 :=
      lt_of_le_of_lt (by gcongr) h
    have hpower : (2 : ℚ) ^ (28 * digits.log2 + 93 * j) < 2 ^ (28 * 1024) := by
      calc (2 : ℚ) ^ (28 * digits.log2 + 93 * j) = 2 ^ (28 * digits.log2) * 2 ^ (93 * j) := by
            rw [pow_add]
        _ ≤ 2 ^ (28 * digits.log2) * 10 ^ (28 * j) := by gcongr; exact two_pow_le_ten_pow j
        _ = (2 ^ digits.log2 * 10 ^ j) ^ 28 := by
            rw [mul_pow, ← pow_mul, ← pow_mul, mul_comm 28, mul_comm 28]
        _ < (2 ^ 1024) ^ 28 := pow_lt_pow_left₀ hlt (by positivity) (by decide)
        _ = 2 ^ (28 * 1024) := by rw [← pow_mul, mul_comm]
    have hnat := lt_of_two_pow_lt hpower
    omega
  · obtain ⟨j, hj⟩ : ∃ j : ℕ, -exponent = j := ⟨(-exponent).toNat, by omega⟩
    rw [show exponent = -(j : ℤ) by omega, zpow_neg, zpow_natCast, ← div_eq_mul_inv,
      div_lt_iff₀ (by positivity)] at h
    have hlt : (2 : ℚ) ^ digits.log2 < 2 ^ 1024 * 10 ^ j := lt_of_le_of_lt hlog h
    have hpower : (2 : ℚ) ^ (31 * digits.log2) < 2 ^ (31 * 1024 + 103 * j) := by
      calc (2 : ℚ) ^ (31 * digits.log2) = (2 ^ digits.log2) ^ 31 := by rw [← pow_mul, mul_comm]
        _ < (2 ^ 1024 * 10 ^ j) ^ 31 := pow_lt_pow_left₀ hlt (by positivity) (by decide)
        _ = 2 ^ (31 * 1024) * 10 ^ (31 * j) := by
            rw [mul_pow, ← pow_mul, ← pow_mul, mul_comm 1024, mul_comm j]
        _ ≤ 2 ^ (31 * 1024) * 2 ^ (103 * j) := by gcongr; exact ten_pow_le_two_pow j
        _ = 2 ^ (31 * 1024 + 103 * j) := by rw [pow_add]
    have hnat := lt_of_two_pow_lt hpower
    omega

private theorem le_magnitude (hsize : digits.log2 ≤ 100000)
    (h : 2 ^ (-1075 : ℤ) ≤ decimalValue digits exponent) : -400 ≤ magnitude digits exponent := by
  have hlog : (digits : ℚ) < 2 ^ (digits.log2 + 1) := by exact_mod_cast Nat.lt_log2_self
  unfold decimalValue at h
  unfold magnitude
  rcases le_or_gt 0 exponent with he | he
  · omega
  · obtain ⟨j, hj⟩ : ∃ j : ℕ, -exponent = j := ⟨(-exponent).toNat, by omega⟩
    have hleast : (2 : ℚ) ^ (-1075 : ℤ) = (2 ^ 1075)⁻¹ := by
      rw [zpow_neg]
      rfl
    rw [hleast, show exponent = -(j : ℤ) by omega, zpow_neg, zpow_natCast, ← div_eq_mul_inv,
      le_div_iff₀ (by positivity), ← div_eq_inv_mul, div_le_iff₀ (by positivity)] at h
    have hlt : (10 : ℚ) ^ j < 2 ^ (digits.log2 + 1 + 1075) := by
      rw [pow_add 2 _ 1075]
      exact lt_of_le_of_lt h (mul_lt_mul_of_pos_right hlog (by positivity))
    have hpower : (2 : ℚ) ^ (93 * j) < 2 ^ (28 * (digits.log2 + 1 + 1075)) := by
      calc (2 : ℚ) ^ (93 * j) ≤ 10 ^ (28 * j) := two_pow_le_ten_pow j
        _ = (10 ^ j) ^ 28 := by rw [← pow_mul, mul_comm]
        _ < (2 ^ (digits.log2 + 1 + 1075)) ^ 28 :=
            pow_lt_pow_left₀ hlt (by positivity) (by decide)
        _ = 2 ^ (28 * (digits.log2 + 1 + 1075)) := by rw [← pow_mul, mul_comm 28]
    have hnat := lt_of_two_pow_lt hpower
    omega

/-- A decimal with a value of the range of the finite numbers is rounded by its value. -/
theorem ofDecimal_of_bounds (hdigits : digits ≠ 0) (hsize : digits.log2 ≤ 100000)
    (hlow : 2 ^ (-1075 : ℤ) ≤ decimalValue digits exponent)
    (hhigh : decimalValue digits exponent < 2 ^ (1024 : ℤ)) :
    ofDecimal negative digits exponent = rounded negative (decimalValue digits exponent) :=
  ofDecimal_eq_rounded hdigits (le_magnitude hsize hlow) (magnitude_le hdigits hsize hhigh)

/-! ### Decimals of one value -/

variable {m : ℕ} {e : ℤ}

/-- A decimal that comes to a finite number other than zero is rounded by its value. -/
theorem rounded_of_ofDecimal (h : ofDecimal negative digits exponent = .finite negative m e)
    (hm : m ≠ 0) :
    digits ≠ 0 ∧ rounded negative (decimalValue digits exponent) = .finite negative m e := by
  have hdigits : digits ≠ 0 := by
    rintro rfl
    simp only [ofDecimal, if_true, signedZero, finite.injEq] at h
    exact hm h.2.1.symm
  have hhigh : magnitude digits exponent ≤ 320 := by
    by_contra hnot
    unfold magnitude at hnot
    unfold ofDecimal at h
    rw [if_neg hdigits, if_pos (by omega)] at h
    cases h
  have hlow : -400 ≤ magnitude digits exponent := by
    by_contra hnot
    unfold magnitude at hnot hhigh
    unfold ofDecimal at h
    rw [if_neg hdigits] at h
    dsimp only at h
    rw [if_neg (by omega), if_pos (by omega)] at h
    simp only [signedZero, finite.injEq] at h
    exact hm h.2.1.symm
  rw [← ofDecimal_eq_rounded hdigits hlow hhigh]
  exact ⟨hdigits, h⟩

theorem rounded_sign {q : ℚ} (h : rounded negative q = .finite negative m e) (sign : Bool) :
    rounded sign q = .finite sign m e := by
  unfold rounded at h ⊢
  grind

/-- Decimals of one value come to one number, whatever their sign. -/
theorem ofDecimal_congr {digits' : ℕ} {exponent' : ℤ}
    (h : ofDecimal negative digits exponent = .finite negative m e) (hm : m ≠ 0)
    (hvalue : decimalValue digits' exponent' = decimalValue digits exponent)
    (hsize : digits'.log2 ≤ 100000) (sign : Bool) :
    ofDecimal sign digits' exponent' = .finite sign m e := by
  obtain ⟨hdigits, hrounded⟩ := rounded_of_ofDecimal h hm
  have hpos : 0 < decimalValue digits exponent := decimalValue_pos hdigits
  obtain ⟨hlow, hhigh⟩ := bounds_of_rounded hpos hrounded hm
  have hdigits' : digits' ≠ 0 := by
    rintro rfl
    simp only [decimalValue, Nat.cast_zero, zero_mul] at hvalue hpos
    exact hpos.ne hvalue
  rw [ofDecimal_of_bounds hdigits' hsize (hvalue ▸ hlow) (hvalue ▸ hhigh), hvalue]
  exact rounded_sign hrounded sign

/-- What a decimal comes to has the form of its number. -/
theorem isCanonical_ofDecimal (negative : Bool) (digits : ℕ) (exponent : ℤ) :
    (ofDecimal negative digits exponent).IsCanonical := by
  unfold ofDecimal
  dsimp only
  split
  · exact isCanonical_signedZero negative
  · split
    · trivial
    · split
      · exact isCanonical_signedZero negative
      · split <;> exact isCanonical_ofQuotient ..

/-- What a text stands for has the form of its number. -/
theorem isCanonical_read? {t : Text} {x : Binary64} (h : read? t = some x) : x.IsCanonical := by
  unfold read? at h
  split at h
  · cases h
  · next plain hplain =>
    dsimp only at h
    split at h
    · cases h
      trivial
    · split at h
      · cases h
        trivial
      · obtain ⟨d, -, rfl⟩ := Option.map_eq_some_iff.mp h
        exact isCanonical_ofDecimal ..

end StoryCatalog.Binary64
