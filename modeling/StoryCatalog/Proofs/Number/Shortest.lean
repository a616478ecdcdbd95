import StoryCatalog.Proofs.Number.Decimal

/-!
# Shortest decimals

The decimal that a number is written with comes to the number again, whichever way `digits` has
found it: among the neighbours of the value on some decimal grid, with zeros dropped, or as the
exact value.
-/

namespace StoryCatalog.Binary64

variable {m : ℕ} {e : ℤ} {x : Binary64}

/-- The value of a number other than zero lies in the range of the finite numbers. -/
theorem bounds_of_isCanonical (h : (finite false m e).IsCanonical) (hm : m ≠ 0) :
    2 ^ (-1074 : ℤ) ≤ (m : ℚ) * 2 ^ e ∧ (m : ℚ) * 2 ^ e < 2 ^ (1024 : ℤ) := by
  obtain ⟨hlt, hleast, hgreatest, -⟩ := h
  have hone : (1 : ℚ) ≤ m := by exact_mod_cast Nat.pos_of_ne_zero hm
  have hlt' : (m : ℚ) < 2 ^ (53 : ℤ) := by exact_mod_cast hlt
  constructor
  · calc (2 : ℚ) ^ (-1074 : ℤ) ≤ 2 ^ e := zpow_le_zpow_right₀ (by norm_num) hleast
      _ = 1 * 2 ^ e := (one_mul _).symm
      _ ≤ m * 2 ^ e := by gcongr
  · calc (m : ℚ) * 2 ^ e < 2 ^ (53 : ℤ) * 2 ^ e := by gcongr
      _ = 2 ^ (53 + e) := by rw [zpow_add₀ two_ne_zero]
      _ ≤ 2 ^ (1024 : ℤ) :=
          zpow_le_zpow_right₀ (by norm_num) (by unfold greatestExponent at hgreatest; omega)

/-! ### Searching the grids -/

/-- A decimal that is found comes to the number, and is at most so many places finer than the
first one. -/
theorem findDigits_spec {num den : ℕ} {top : ℤ} {fuel count : ℕ} {found : ℕ × ℤ}
    (h : findDigits x num den top fuel count = some found) :
    ofDecimal false found.1 found.2 = x ∧ top - (count + fuel : ℕ) < found.2 := by
  induction fuel generalizing count with
  | zero => cases h
  | succ fuel ih =>
    unfold findDigits at h
    dsimp only at h
    split at h
    · next digits hdigits =>
      cases h
      refine ⟨by simpa using List.find?_some hdigits, ?_⟩
      push_cast
      omega
    · obtain ⟨hcomes, hfine⟩ := ih h
      refine ⟨hcomes, ?_⟩
      push_cast at hfine ⊢
      omega

/-- Zeros that are dropped do not change the value. -/
theorem dropZeros_spec (fuel : ℕ) {digits : ℕ} (exponent : ℤ) (h : digits ≠ 0) :
    (dropZeros fuel digits exponent).1 ≠ 0 ∧ (dropZeros fuel digits exponent).1 ≤ digits ∧
      decimalValue (dropZeros fuel digits exponent).1 (dropZeros fuel digits exponent).2 =
        decimalValue digits exponent := by
  induction fuel generalizing digits exponent with
  | zero => exact ⟨h, le_rfl, rfl⟩
  | succ fuel ih =>
    unfold dropZeros
    split
    · next hzero =>
      obtain ⟨hne, hle, hvalue⟩ := ih (exponent + 1) (show digits / 10 ≠ 0 by omega)
      refine ⟨hne, by omega, hvalue.trans ?_⟩
      have hdigits : (digits : ℚ) = (digits / 10 : ℕ) * 10 := by
        exact_mod_cast show digits = digits / 10 * 10 by omega
      rw [decimalValue, decimalValue, hdigits, zpow_add₀ (by norm_num), zpow_one]
      ring
    · exact ⟨h, le_rfl, rfl⟩

/-! ### The decimal of a number -/

private theorem two_zpow_le_ten_zpow (j : ℕ) : (2 : ℚ) ^ (-(4 * j : ℕ) : ℤ) ≤ 10 ^ (-(j : ℤ)) := by
  rw [zpow_neg, zpow_neg, zpow_natCast, zpow_natCast, pow_mul]
  gcongr
  norm_num

private theorem ten_zpow_le_two_zpow (j : ℕ) : (10 : ℚ) ^ (-(j : ℤ)) ≤ 2 ^ (-(j : ℤ)) := by
  rw [zpow_neg, zpow_neg, zpow_natCast, zpow_natCast]
  gcongr
  norm_num

private theorem log2_le_of_value_lt {digits j : ℕ} {exponent : ℤ} (hdigits : digits ≠ 0)
    (h : decimalValue digits exponent < 2 ^ (1024 : ℤ)) (hfine : -j ≤ exponent) :
    digits.log2 ≤ 1024 + 4 * j := by
  have hlog : (2 : ℚ) ^ (digits.log2 : ℤ) ≤ digits := by
    rw [zpow_natCast]
    exact_mod_cast Nat.log2_self_le hdigits
  have hten : (2 : ℚ) ^ (-(4 * j : ℕ) : ℤ) ≤ 10 ^ exponent :=
    le_trans (two_zpow_le_ten_zpow j) (zpow_le_zpow_right₀ (by norm_num) hfine)
  have hlt : (2 : ℚ) ^ ((digits.log2 : ℤ) + (-(4 * j : ℕ) : ℤ)) < 2 ^ (1024 : ℤ) := by
    rw [zpow_add₀ two_ne_zero]
    refine lt_of_le_of_lt ?_ h
    unfold decimalValue
    gcongr
  have hexponents := (zpow_lt_zpow_iff_right₀ (by norm_num : (1 : ℚ) < 2)).mp hlt
  push_cast at hexponents
  omega

/-- The exact value of a number as a decimal. -/
private theorem decimalValue_exact (m : ℕ) (e : ℤ) :
    decimalValue (if e < 0 then m * 5 ^ (-e).toNat else m * 2 ^ e.toNat) (if e < 0 then e else 0) =
      m * 2 ^ e := by
  unfold decimalValue
  split
  · next he =>
    obtain ⟨j, hj⟩ : ∃ j : ℕ, -e = j := ⟨(-e).toNat, by omega⟩
    rw [hj, Int.toNat_natCast, show e = -(j : ℤ) by omega, zpow_neg, zpow_neg, zpow_natCast,
      zpow_natCast, show (10 : ℚ) = 5 * 2 by norm_num, mul_pow]
    push_cast
    field_simp
  · next he =>
    obtain ⟨j, rfl⟩ : ∃ j : ℕ, e = j := ⟨e.toNat, by omega⟩
    rw [Int.toNat_natCast, zpow_natCast, zpow_zero, mul_one]
    push_cast
    rfl

/-- The quotient of which the decimal of a number is searched. -/
private theorem quotient_eq (m : ℕ) (e : ℤ) :
    ((if e < 0 then m else m * 2 ^ e.toNat : ℕ) : ℚ) / (if e < 0 then 2 ^ (-e).toNat else 1 : ℕ) =
      m * 2 ^ e := by
  split
  · next he =>
    obtain ⟨j, hj⟩ : ∃ j : ℕ, -e = j := ⟨(-e).toNat, by omega⟩
    rw [hj, Int.toNat_natCast, show e = -(j : ℤ) by omega, zpow_neg, zpow_natCast]
    push_cast
    rw [div_eq_mul_inv]
  · next he =>
    obtain ⟨j, rfl⟩ : ∃ j : ℕ, e = j := ⟨e.toNat, by omega⟩
    rw [Int.toNat_natCast, zpow_natCast]
    push_cast
    rw [div_one]

/-- The decimal of a number comes to the number again. -/
theorem ofDecimal_digits (h : (finite false m e).IsCanonical) (hm : m ≠ 0) :
    (digits m e).1 ≠ 0 ∧ (digits m e).1.log2 ≤ 10000 ∧
      ofDecimal false (digits m e).1 (digits m e).2 = .finite false m e := by
  obtain ⟨hlow, hhigh⟩ := bounds_of_isCanonical h hm
  have hpos : 0 < m := Nat.pos_of_ne_zero hm
  unfold digits
  simp only [Nat.pow_eq]
  split
  · next found power hfound =>
    obtain ⟨hcomes, hfine⟩ := findDigits_spec hfound
    dsimp only at hcomes hfine
    obtain ⟨hdigits, hrounded⟩ := rounded_of_ofDecimal hcomes hm
    obtain ⟨-, hlt⟩ := bounds_of_rounded (decimalValue_pos hdigits) hrounded hm
    have hnum : 0 < (if e < 0 then m else m * 2 ^ e.toNat) := by split <;> positivity
    have hden : 0 < (if e < 0 then 2 ^ (-e).toNat else 1) := by split <;> positivity
    have htop : -1074 ≤ decimalExponent (if e < 0 then m else m * 2 ^ e.toNat)
        (if e < 0 then 2 ^ (-e).toNat else 1) := by
      rw [decimalExponent_eq_log hnum hden, quotient_eq,
        ← Int.zpow_le_iff_le_log (by decide) (by positivity)]
      exact le_trans (ten_zpow_le_two_zpow 1074) hlow
    have hsize : found.log2 ≤ 1024 + 4 * 1092 := log2_le_of_value_lt hdigits hlt (by omega)
    obtain ⟨hne, hle, hvalue⟩ := dropZeros_spec 20 power hdigits
    have hsize' : (dropZeros 20 found power).1.log2 ≤ found.log2 := by
      rw [Nat.log2_eq_log_two, Nat.log2_eq_log_two]
      exact Nat.log_mono_right hle
    exact ⟨hne, by omega, ofDecimal_congr hcomes hm hvalue (by omega) false⟩
  · have hvalue := decimalValue_exact m e
    have hne : (if e < 0 then m * 5 ^ (-e).toNat else m * 2 ^ e.toNat) ≠ 0 := by
      split <;> positivity
    have hsize :
        (if e < 0 then m * 5 ^ (-e).toNat else m * 2 ^ e.toNat).log2 ≤ 1024 + 4 * 1092 := by
      refine log2_le_of_value_lt hne (hvalue ▸ hhigh) ?_
      have hleast := h.2.1
      unfold leastExponent at hleast
      split <;> omega
    have hexact := @ofDecimal_of_bounds false _ _ hne (by omega)
      (hvalue ▸ le_trans (zpow_le_zpow_right₀ (by norm_num) (by norm_num)) hlow) (hvalue ▸ hhigh)
    rw [hvalue, rounded_of_isCanonical h hpos] at hexact
    split
    · next he =>
      simp only [if_pos he] at hne hsize hexact
      exact ⟨hne, by dsimp only; omega, hexact⟩
    · next he =>
      simp only [if_neg he] at hne hsize hexact
      exact ⟨hne, by dsimp only; omega, hexact⟩

end StoryCatalog.Binary64
