import Mathlib.Algebra.Order.Field.Power
import Mathlib.Data.Int.Log
import Mathlib.Data.Rat.Floor
import Mathlib.Tactic.FieldSimp
import Mathlib.Tactic.GCongr
import Mathlib.Tactic.Linarith
import Mathlib.Tactic.Positivity
import Mathlib.Tactic.Ring
import StoryCatalog.Number.Shortest

/-!
# Rounding

What `Binary64.ofQuotient` comes to depends on the value of the quotient alone, is in the one form
of its number, and is the number itself where the value is one. The exponents of values are integer
logarithms.
-/

namespace StoryCatalog.Binary64

/-! ### Exponents -/

section Exponents

variable {b num den : ℕ}

/-- A comparison with a power, without fractions. -/
private theorem reaches_iff (hb : 0 < b) (hden : 0 < den) (k : ℤ) :
    (if k < 0 then decide (den ≤ num * b ^ (-k).toNat)
      else decide (den * b ^ k.toNat ≤ num)) = true ↔
      (b : ℚ) ^ k ≤ num / den := by
  have hb' : (0 : ℚ) < b := by exact_mod_cast hb
  have hden' : (0 : ℚ) < den := by exact_mod_cast hden
  rw [le_div_iff₀ hden']
  split
  · next hk =>
    obtain ⟨j, hj⟩ : ∃ j : ℕ, -k = j := ⟨(-k).toNat, by omega⟩
    have hpos : (0 : ℚ) < b ^ j := pow_pos hb' j
    have hpower : (b : ℚ) ^ k = ((b : ℚ) ^ j)⁻¹ := by
      rw [show k = -(j : ℤ) by omega, zpow_neg, zpow_natCast]
    rw [decide_eq_true_eq, hj, Int.toNat_natCast, hpower, ← div_eq_inv_mul, div_le_iff₀ hpos]
    exact_mod_cast Iff.rfl
  · next hk =>
    obtain ⟨j, rfl⟩ : ∃ j : ℕ, k = j := ⟨k.toNat, by omega⟩
    rw [decide_eq_true_eq, Int.toNat_natCast, zpow_natCast, mul_comm]
    exact_mod_cast Iff.rfl

/-- The difference of the logarithms, or one less, is the logarithm of a quotient. -/
private theorem exponent_eq_log (hb : 1 < b) {l m : ℕ} (hnum : b ^ l ≤ num)
    (hnum' : num < b ^ (l + 1)) (hden : b ^ m ≤ den) (hden' : den < b ^ (m + 1)) {reaches : Bool}
    (hreaches : reaches = true ↔ (b : ℚ) ^ ((l : ℤ) - m) ≤ num / den) :
    (if reaches then (l : ℤ) - m else (l : ℤ) - m - 1) = Int.log b ((num : ℚ) / den) := by
  have hbpos : (0 : ℚ) < b := by exact_mod_cast Nat.zero_lt_of_lt hb
  have hdenpos : 0 < den := Nat.lt_of_lt_of_le (Nat.pow_pos (Nat.zero_lt_of_lt hb)) hden
  have hdenpos' : (0 : ℚ) < den := by exact_mod_cast hdenpos
  have hnumpos : (0 : ℚ) < num := by
    exact_mod_cast Nat.lt_of_lt_of_le (Nat.pow_pos (Nat.zero_lt_of_lt hb)) hnum
  have hpos : (0 : ℚ) < num / den := div_pos hnumpos hdenpos'
  have hlow : (b : ℚ) ^ ((l : ℤ) - m - 1) ≤ num / den := by
    rw [show (l : ℤ) - m - 1 = l - (m + 1 : ℕ) by push_cast; ring, zpow_sub₀ hbpos.ne']
    simp only [zpow_natCast]
    gcongr
    · exact_mod_cast hnum
    · exact_mod_cast hden'.le
  have hhigh : (num : ℚ) / den < b ^ ((l : ℤ) - m + 1) := by
    rw [show (l : ℤ) - m + 1 = (l + 1 : ℕ) - m by push_cast; ring, zpow_sub₀ hbpos.ne']
    simp only [zpow_natCast]
    gcongr
    · exact_mod_cast hnum'
    · exact_mod_cast hden
  split
  · next h =>
    have hle := (Int.zpow_le_iff_le_log hb hpos).mp (hreaches.mp h)
    have hlt := (Int.lt_zpow_iff_log_lt hb hpos).mp hhigh
    omega
  · next h =>
    have hle := (Int.zpow_le_iff_le_log hb hpos).mp hlow
    have hlt := (Int.lt_zpow_iff_log_lt hb hpos).mp (not_le.mp (mt hreaches.mpr h))
    omega

/-- The binary exponent of a quotient is its logarithm. -/
theorem binaryExponent_eq_log (hnum : 0 < num) (hden : 0 < den) :
    binaryExponent num den = Int.log 2 ((num : ℚ) / den) :=
  exponent_eq_log (by decide) (Nat.log2_self_le hnum.ne') Nat.lt_log2_self
    (Nat.log2_self_le hden.ne') Nat.lt_log2_self (reaches_iff (by decide) hden _)

private theorem pow_digitCount_le {n : ℕ} (h : 0 < n) :
    10 ^ (digitCount n - 1) ≤ n ∧ n < 10 ^ (digitCount n - 1 + 1) := by
  have hpos : 0 < digitCount n := Nat.length_toDigits_pos
  have hlt : n < 10 ^ digitCount n := (Nat.length_toDigits_le_iff (by decide) hpos).mp le_rfl
  rw [Nat.sub_add_cancel hpos]
  refine ⟨?_, hlt⟩
  rcases Nat.eq_zero_or_pos (digitCount n - 1) with hone | hmany
  · rw [hone]
    exact h
  · have hnot := mt (Nat.length_toDigits_le_iff (by decide : 1 < 10) hmany (n := n)).mpr
    exact Nat.not_lt.mp (hnot (Nat.not_le.mpr (Nat.sub_lt hpos Nat.one_pos)))

/-- The decimal exponent of a quotient is its logarithm. -/
theorem decimalExponent_eq_log (hnum : 0 < num) (hden : 0 < den) :
    decimalExponent num den = Int.log 10 ((num : ℚ) / den) := by
  have hl : 0 < digitCount num := Nat.length_toDigits_pos
  have hm : 0 < digitCount den := Nat.length_toDigits_pos
  rw [← exponent_eq_log (by decide) (pow_digitCount_le hnum).1 (pow_digitCount_le hnum).2
    (pow_digitCount_le hden).1 (pow_digitCount_le hden).2 (reaches_iff (by decide) hden _)]
  unfold decimalExponent
  rw [show ((digitCount num - 1 : ℕ) : ℤ) - (digitCount den - 1 : ℕ) =
    digitCount num - digitCount den by omega]
  rfl

end Exponents

/-! ### Rounding to whole numbers -/

section Nearest

variable {num den : ℕ} {q : ℚ} {n : ℕ}

/-- The whole number nearest to a quotient, the even one in a tie. -/
def nearest (q : ℚ) : ℕ := roundQuotient q.num.natAbs q.den

private theorem roundQuotient_mul (c : ℕ) (hc : 0 < c) :
    roundQuotient (c * num) (c * den) = roundQuotient num den := by
  unfold roundQuotient
  dsimp only
  rw [Nat.mul_div_mul_left _ _ hc, Nat.mul_mod_mul_left, Nat.mul_left_comm]
  simp only [Nat.mul_lt_mul_left hc]

private theorem natAbs_num_div_den (h : 0 ≤ q) : (q.num.natAbs : ℚ) / q.den = q := by
  have hnum : ((q.num.natAbs : ℤ) : ℚ) = q.num := by
    rw [Int.natAbs_of_nonneg (Rat.num_nonneg.mpr h)]
  rw [← Int.cast_natCast, hnum]
  exact Rat.num_div_den q

/-- Rounding looks at the value of a quotient alone. -/
theorem roundQuotient_eq_nearest (hden : 0 < den) :
    roundQuotient num den = nearest ((num : ℚ) / den) := by
  have hden' : (den : ℚ) ≠ 0 := by exact_mod_cast hden.ne'
  have hpos : (0 : ℚ) ≤ num / den := by positivity
  generalize hq : (num : ℚ) / den = q at hpos
  have hq' : (q.den : ℚ) ≠ 0 := by exact_mod_cast (Rat.den_pos q).ne'
  have hcross : num * q.den = q.num.natAbs * den := by
    have hsame : (num : ℚ) / den = q.num.natAbs / q.den := by
      rw [hq, natAbs_num_div_den hpos]
    exact_mod_cast (div_eq_div_iff hden' hq').mp hsame
  rw [nearest, ← roundQuotient_mul q.den (Rat.den_pos q), mul_comm _ num, hcross,
    mul_comm _ den, mul_comm _ den, roundQuotient_mul den hden]

private theorem roundQuotient_le (hden : 0 < den) (h : num ≤ n * den) :
    roundQuotient num den ≤ n := by
  have hdiv : num / den ≤ n := by
    rw [← Nat.mul_div_cancel n hden]
    exact Nat.div_le_div_right h
  have hsplit := Nat.div_add_mod num den
  unfold roundQuotient
  dsimp only
  rcases Nat.eq_or_lt_of_le hdiv with heq | hlt
  · have hrest : num % den = 0 := by
      rw [heq, mul_comm] at hsplit
      omega
    rw [if_pos (by omega), heq]
  · split
    · omega
    · split
      · omega
      · split <;> omega

private theorem le_roundQuotient (hden : 0 < den) (h : n * den ≤ num) :
    n ≤ roundQuotient num den := by
  have hdiv : n ≤ num / den := (Nat.le_div_iff_mul_le hden).mpr h
  unfold roundQuotient
  dsimp only
  split
  · exact hdiv
  · split
    · omega
    · split <;> omega

theorem nearest_le (hq : 0 ≤ q) (h : q ≤ n) : nearest q ≤ n := by
  rw [← natAbs_num_div_den hq, div_le_iff₀ (by exact_mod_cast Rat.den_pos q)] at h
  exact roundQuotient_le (Rat.den_pos q) (by exact_mod_cast h)

theorem le_nearest (h : n ≤ q) : n ≤ nearest q := by
  have hq : 0 ≤ q := le_trans (by positivity) h
  rw [← natAbs_num_div_den hq, le_div_iff₀ (by exact_mod_cast Rat.den_pos q)] at h
  exact le_roundQuotient (Rat.den_pos q) (by exact_mod_cast h)

/-- A whole number is the nearest to itself. -/
@[simp] theorem nearest_natCast (n : ℕ) : nearest (n : ℚ) = n :=
  Nat.le_antisymm (nearest_le (by positivity) le_rfl) (le_nearest le_rfl)

/-- What is not rounded to zero is at least a half. -/
theorem half_le_of_nearest_ne_zero (hq : 0 ≤ q) (h : nearest q ≠ 0) : 1 / 2 ≤ q := by
  by_cases hsmall : 2 * q.num.natAbs < q.den
  · have hdiv : q.num.natAbs / q.den = 0 := Nat.div_eq_of_lt (by omega)
    have hmod : q.num.natAbs % q.den = q.num.natAbs := Nat.mod_eq_of_lt (by omega)
    refine absurd ?_ h
    rw [nearest, roundQuotient, hmod, if_pos hsmall, hdiv]
  · rw [← natAbs_num_div_den hq, div_le_div_iff₀ (by norm_num) (by exact_mod_cast Rat.den_pos q),
      one_mul, mul_comm]
    exact_mod_cast Nat.not_lt.mp hsmall

/-- Rounding in units of a power of two. -/
theorem inUnits_eq_nearest (hden : 0 < den) (e : ℤ) :
    inUnits num den e = nearest ((num : ℚ) / den / 2 ^ e) := by
  unfold inUnits
  simp only [Nat.pow_eq]
  split
  · next he =>
    obtain ⟨j, hj⟩ : ∃ j : ℕ, -e = j := ⟨(-e).toNat, by omega⟩
    rw [hj, Int.toNat_natCast, roundQuotient_eq_nearest hden, show e = -(j : ℤ) by omega, zpow_neg,
      zpow_natCast, div_inv_eq_mul]
    push_cast
    rw [div_mul_eq_mul_div]
  · next he =>
    obtain ⟨j, rfl⟩ : ∃ j : ℕ, e = j := ⟨e.toNat, by omega⟩
    rw [Int.toNat_natCast, roundQuotient_eq_nearest (Nat.mul_pos hden (by positivity)),
      zpow_natCast]
    push_cast
    rw [div_div]

end Nearest

/-! ### Rounding quotients -/

section Quotient

variable {negative : Bool} {num den : ℕ} {m : ℕ} {e : ℤ}

/-- The form in which every finite number has exactly one mantissa and exponent. -/
def IsCanonical : Binary64 → Prop
  | .finite _ m e =>
    m < 2 ^ 53 ∧ leastExponent ≤ e ∧ e ≤ greatestExponent ∧ (e = leastExponent ∨ 2 ^ 52 ≤ m)
  | _ => True

theorem isCanonical_neg {x : Binary64} (h : x.IsCanonical) : x.neg.IsCanonical := by
  cases x <;> exact h

/-- The exponent of the unit in which a value is rounded. -/
def unitExponent (q : ℚ) : ℤ := max (Int.log 2 q - 52) leastExponent

/-- The number nearest to a positive value. -/
def rounded (negative : Bool) (q : ℚ) : Binary64 :=
  if nearest (q / 2 ^ unitExponent q) < 2 ^ 53 then
    if unitExponent q ≤ greatestExponent then
      .finite negative (nearest (q / 2 ^ unitExponent q)) (unitExponent q)
    else .infinite negative
  else if unitExponent q < greatestExponent then .finite negative (2 ^ 52) (unitExponent q + 1)
  else .infinite negative

/-- Rounding looks at the value of a quotient alone. -/
theorem ofQuotient_eq_rounded (hnum : 0 < num) (hden : 0 < den) :
    ofQuotient negative num den = rounded negative (num / den) := by
  unfold ofQuotient
  rw [if_neg (by omega)]
  simp only [binaryExponent_eq_log hnum hden, inUnits_eq_nearest hden, Nat.pow_eq]
  rfl

private theorem div_unit_lt (q : ℚ) : q / 2 ^ unitExponent q < 2 ^ (53 : ℤ) := by
  have hlog := Int.lt_zpow_succ_log_self (b := 2) (by decide) q
  have hle : Int.log 2 q + 1 ≤ 53 + unitExponent q := by
    unfold unitExponent
    omega
  rw [div_lt_iff₀ (by positivity), ← zpow_add₀ two_ne_zero]
  exact lt_of_lt_of_le hlog (zpow_le_zpow_right₀ (by norm_num) hle)

private theorem le_div_unit {q : ℚ} (hq : 0 < q) (h : unitExponent q ≠ leastExponent) :
    2 ^ (52 : ℤ) ≤ q / 2 ^ unitExponent q := by
  have hlog := Int.zpow_log_le_self (b := 2) (by decide) hq
  have hle : 52 + unitExponent q ≤ Int.log 2 q := by
    unfold unitExponent at h ⊢
    omega
  rw [le_div_iff₀ (by positivity), ← zpow_add₀ two_ne_zero]
  exact le_trans (zpow_le_zpow_right₀ (by norm_num) hle) hlog

/-- What a value is rounded to has the form of its number. -/
theorem isCanonical_rounded {q : ℚ} (hq : 0 < q) : (rounded negative q).IsCanonical := by
  have hleast : leastExponent ≤ unitExponent q := le_max_right ..
  unfold rounded
  split
  · next hm =>
    split
    · next he =>
      refine ⟨hm, hleast, he, ?_⟩
      by_cases h : unitExponent q = leastExponent
      · exact .inl h
      · exact .inr (le_nearest (le_trans (by norm_num) (le_div_unit hq h)))
    · trivial
  · split
    · exact ⟨by norm_num, by omega, by omega, .inr le_rfl⟩
    · trivial

theorem isCanonical_signedZero (negative : Bool) : (signedZero negative).IsCanonical := by
  simp [signedZero, IsCanonical, leastExponent, greatestExponent]

/-- What a quotient is rounded to has the form of its number. -/
theorem isCanonical_ofQuotient (negative : Bool) (num den : ℕ) :
    (ofQuotient negative num den).IsCanonical := by
  by_cases h : num = 0 ∨ den = 0
  · rw [ofQuotient, if_pos h]
    exact isCanonical_signedZero negative
  · have hnum : 0 < num := by omega
    have hden : 0 < den := by omega
    rw [ofQuotient_eq_rounded hnum hden]
    exact isCanonical_rounded (by positivity)

/-- A number in its form is what its value is rounded to. -/
theorem rounded_of_isCanonical (h : (finite negative m e).IsCanonical) (hm : 0 < m) :
    rounded negative (m * 2 ^ e) = .finite negative m e := by
  obtain ⟨hlt, hleast, hgreatest, hform⟩ := h
  have hpos : (0 : ℚ) < m * 2 ^ e := by positivity
  have hexponent : unitExponent ((m : ℚ) * 2 ^ e) = e := by
    have hhigh : Int.log 2 ((m : ℚ) * 2 ^ e) < 53 + e := by
      rw [← Int.lt_zpow_iff_log_lt (by decide) hpos, Nat.cast_ofNat, zpow_add₀ two_ne_zero]
      refine mul_lt_mul_of_pos_right ?_ (by positivity)
      exact_mod_cast hlt
    unfold unitExponent
    rcases hform with hleast' | hnormal
    · omega
    · have hlow : 52 + e ≤ Int.log 2 ((m : ℚ) * 2 ^ e) := by
        rw [← Int.zpow_le_iff_le_log (by decide) hpos, Nat.cast_ofNat, zpow_add₀ two_ne_zero]
        refine mul_le_mul_of_nonneg_right ?_ (by positivity)
        exact_mod_cast hnormal
      omega
  have hunit : (m : ℚ) * 2 ^ e / 2 ^ e = m := mul_div_cancel_right₀ _ (by positivity)
  rw [rounded, hexponent, hunit, nearest_natCast, if_pos hlt, if_pos hgreatest]

/-- Only values of the range of the finite numbers are rounded to finite numbers other than zero. -/
theorem bounds_of_rounded {q : ℚ} (hq : 0 < q) (h : rounded negative q = .finite negative m e)
    (hm : m ≠ 0) : 2 ^ (-1075 : ℤ) ≤ q ∧ q < 2 ^ (1024 : ℤ) := by
  have hunit : unitExponent q ≤ greatestExponent ∧ nearest (q / 2 ^ unitExponent q) ≠ 0 := by
    unfold rounded at h
    split at h
    · split at h
      · next he =>
        cases h
        exact ⟨he, hm⟩
      · cases h
    · next hlarge =>
      split at h
      · next he => exact ⟨he.le, fun hzero ↦ hlarge (by rw [hzero]; norm_num)⟩
      · cases h
  constructor
  · have hhalf := half_le_of_nearest_ne_zero (by positivity) hunit.2
    have hleast : leastExponent ≤ unitExponent q := le_max_right ..
    rw [le_div_iff₀ (by positivity)] at hhalf
    calc (2 : ℚ) ^ (-1075 : ℤ) = 1 / 2 * 2 ^ leastExponent := by
          rw [one_div, ← zpow_neg_one, ← zpow_add₀ two_ne_zero]
          rfl
      _ ≤ 1 / 2 * 2 ^ unitExponent q := by gcongr; norm_num
      _ ≤ q := hhalf
  · have hlt := div_unit_lt q
    rw [div_lt_iff₀ (by positivity), ← zpow_add₀ two_ne_zero] at hlt
    exact lt_of_lt_of_le hlt (zpow_le_zpow_right₀ (by norm_num)
      (by have := hunit.1; unfold greatestExponent at this; omega))

end Quotient

/-! ### Whole numbers -/

private theorem toRat?_lt {b : ℕ} (hb : 1024 ≤ b) {x : Binary64} (hx : x.IsCanonical) {r : ℚ}
    (h : x.toRat? = some r) : |r| < 2 ^ b := by
  cases x with
  | infinite negative => cases h
  | nan => cases h
  | finite negative m e =>
    obtain ⟨hm, -, he, -⟩ := hx
    have hm' : (m : ℚ) < 2 ^ 53 := by exact_mod_cast hm
    unfold toRat? at h
    dsimp only at h
    set size : ℚ := if e < 0 then mkRat m (Nat.pow 2 (-e).toNat)
      else ((m * Nat.pow 2 e.toNat : ℕ) : ℚ) with hsize
    have hsize' : |size| < 2 ^ b := by
      rw [hsize]
      simp only [Nat.pow_eq]
      split
      · have hle : (m : ℚ) / (2 ^ (-e).toNat : ℕ) ≤ m :=
          div_le_self (by positivity) (by exact_mod_cast Nat.one_le_two_pow)
        rw [Rat.mkRat_eq_div, Int.cast_natCast, abs_of_nonneg (by positivity)]
        calc (m : ℚ) / (2 ^ (-e).toNat : ℕ) ≤ m := hle
          _ < 2 ^ 53 := hm'
          _ ≤ 2 ^ b := pow_le_pow_right₀ (by norm_num) (by omega)
      · rw [abs_of_nonneg (by positivity)]
        push_cast
        calc (m : ℚ) * 2 ^ e.toNat < 2 ^ 53 * 2 ^ e.toNat :=
              mul_lt_mul_of_pos_right hm' (by positivity)
          _ = 2 ^ (53 + e.toNat) := by rw [pow_add]
          _ ≤ 2 ^ b := pow_le_pow_right₀ (by norm_num) (by unfold greatestExponent at he; omega)
    cases negative
    · cases h
      exact hsize'
    · cases h
      rw [if_pos rfl, abs_neg]
      exact hsize'

/-- A whole number is read off a finite one below the power of two that ends their range. -/
theorem natAbs_toInt?_lt {b : ℕ} (hb : 1024 ≤ b) {x : Binary64} (hx : x.IsCanonical) {n : ℤ}
    (h : x.toInt? = some n) : n.natAbs < 2 ^ b := by
  unfold toInt? at h
  split at h
  · next r hr =>
    split at h
    · next hden =>
      cases h
      have hlt := toRat?_lt hb hx hr
      rw [← Rat.num_div_den r, hden, Nat.cast_one, div_one, ← Int.cast_abs] at hlt
      have hlt' : |r.num| < 2 ^ b := by exact_mod_cast hlt
      rw [Int.abs_eq_natAbs] at hlt'
      exact_mod_cast hlt'
    · cases h
  · cases h

end StoryCatalog.Binary64
