import StoryCatalog.Number.Decimal
import StoryCatalog.Proofs.Number.Shortest
import StoryCatalog.Proofs.Text.Digits

/-!
# Spellings of numbers

A spelling has a whole part without needless zeros, and a fraction or a power of ten or both. The
text of a number is a spelling of a decimal with the value of its shortest decimal.
-/

namespace StoryCatalog

namespace Decimal

/-- Digits in front of a point: at least one, and a zero only by itself. -/
def IsWhole (t : Text) : Prop :=
  ∃ c rest, t = c :: rest ∧ (∀ d ∈ t, d.isDigit = true) ∧ (c.val = 0x30 → rest = [])

/-- A power of ten behind its mark, or none. -/
inductive IsPower : Text → ℤ → Prop where
  | none : IsPower [] 0
  | positive {digits : Text} : digits ≠ [] → (∀ d ∈ digits, d.isDigit = true) →
    IsPower (CodePoint.ofChar 'e' :: CodePoint.ofChar '+' :: digits) (Text.digitNumber digits)
  | negative {digits : Text} : digits ≠ [] → (∀ d ∈ digits, d.isDigit = true) →
    IsPower (CodePoint.ofChar 'e' :: CodePoint.ofChar '-' :: digits) (-Text.digitNumber digits)

/-- The text of a fraction behind its point, if it has digits. -/
def fraction (part : Text) : Text := if part.isEmpty then [] else CodePoint.ofChar '.' :: part

/-- Texts that are spelt as a decimal with a fraction or a power of ten. -/
inductive IsSpelling : Text → Decimal → Prop where
  | mk {whole part power : Text} {p : ℤ} : IsWhole whole → (∀ c ∈ part, c.isDigit = true) →
    IsPower power p → (part ≠ [] ∨ power ≠ []) →
    IsSpelling (whole ++ fraction part ++ power)
      ⟨Text.digitNumber (whole ++ part), p - part.length⟩

end Decimal

namespace Text

theorem isDigit_of_mem_zeros {n : ℕ} {c : CodePoint}
    (h : c ∈ List.replicate n (CodePoint.ofChar '0')) : c.isDigit = true := by
  rw [List.eq_of_mem_replicate h]
  decide

theorem digitNumber_zeros_append (n : ℕ) {t : Text} (h : ∀ c ∈ t, c.isDigit = true) :
    digitNumber (List.replicate n (CodePoint.ofChar '0') ++ t) = digitNumber t := by
  rw [digitNumber_append _ h, digitNumber_zeros, Nat.zero_mul, Nat.zero_add]

end Text

namespace Decimal

open Text

variable {digits : ℕ}

private theorem isWhole_append {t : Text} (hdigits : digits ≠ 0)
    (h : ∀ c ∈ t, c.isDigit = true) : IsWhole (ofNat digits ++ t) := by
  obtain ⟨d, rest, hd, hlt, hbody⟩ := exists_ofNat_eq_cons hdigits
  refine ⟨CodePoint.ofDigit d, rest ++ t, by rw [hbody, List.cons_append], ?_, ?_⟩
  · intro c hc
    rcases List.mem_append.mp hc with hmem | hmem
    · exact isDigit_of_mem_ofNat hmem
    · exact h c hmem
  · rw [CodePoint.val_ofDigit hlt]
    omega

theorem isWhole_ofNat (n : ℕ) : IsWhole (ofNat n) := by
  by_cases h : n = 0
  · rw [h]
    exact ⟨CodePoint.ofDigit 0, [], by rw [ofNat_eq_if, if_pos (by decide)],
      fun c ↦ isDigit_of_mem_ofNat, fun _ ↦ rfl⟩
  · rw [← List.append_nil (ofNat n)]
    exact isWhole_append h (by simp)

private theorem isWhole_take {n : ℕ} (hdigits : digits ≠ 0) (h : n ≠ 0) :
    IsWhole ((ofNat digits).take n) := by
  obtain ⟨d, rest, hd, hlt, hbody⟩ := exists_ofNat_eq_cons hdigits
  obtain ⟨n, rfl⟩ := Nat.exists_eq_succ_of_ne_zero h
  refine ⟨CodePoint.ofDigit d, rest.take n, by rw [hbody, List.take_succ_cons], ?_, ?_⟩
  · exact fun c hc ↦ isDigit_of_mem_ofNat (List.mem_of_mem_take hc)
  · rw [CodePoint.val_ofDigit hlt]
    omega

end Decimal

namespace Binary64

open Decimal Text

variable {digits : ℕ} {exponent : ℤ}

theorem isPower_exponentText (width : ℕ) (n : ℤ) :
    IsPower (CodePoint.ofChar 'e' :: exponentText width n) n := by
  have hdigits : ∀ c ∈ List.replicate (width - (ofNat n.natAbs).length) (CodePoint.ofChar '0') ++
      ofNat n.natAbs, c.isDigit = true := by
    intro c hc
    rcases List.mem_append.mp hc with hmem | hmem
    · exact isDigit_of_mem_zeros hmem
    · exact isDigit_of_mem_ofNat hmem
  have hvalue : digitNumber (List.replicate (width - (ofNat n.natAbs).length)
      (CodePoint.ofChar '0') ++ ofNat n.natAbs) = n.natAbs := by
    rw [digitNumber_zeros_append _ fun c ↦ isDigit_of_mem_ofNat, digitNumber_ofNat]
  unfold exponentText
  dsimp only
  split
  · next hn =>
    have hpower := IsPower.negative (by simp) hdigits
    rw [hvalue] at hpower
    rwa [show -(n.natAbs : ℤ) = n by omega] at hpower
  · next hn =>
    have hpower := IsPower.positive (by simp) hdigits
    rw [hvalue] at hpower
    rwa [show (n.natAbs : ℤ) = n by omega] at hpower

private theorem digitNumber_zero_cons {t : Text} (h : ∀ c ∈ t, c.isDigit = true) :
    digitNumber (CodePoint.ofChar '0' :: t) = digitNumber t :=
  digitNumber_zeros_append 1 h

private theorem fraction_of_ne_nil {part : Text} (h : part ≠ []) :
    fraction part = CodePoint.ofChar '.' :: part := by
  rw [fraction, if_neg (by simpa using h)]

private theorem fraction_drop_one (t : Text) : fraction (t.drop 1) =
    if t.length ≤ 1 then [] else CodePoint.ofChar '.' :: t.drop 1 := by
  rw [fraction]
  exact if_congr (by rw [List.isEmpty_iff, List.drop_eq_nil_iff]) rfl rfl

/-- A number below one begins with a zero and the zeros behind the point. -/
private theorem isSpelling_small (zeros : ℕ) :
    IsSpelling (CodePoint.ofChar '0' :: CodePoint.ofChar '.' ::
      (List.replicate zeros (CodePoint.ofChar '0') ++ ofNat digits))
      ⟨digits, -(zeros + (ofNat digits).length : ℤ)⟩ := by
  have hpart : ∀ c ∈ List.replicate zeros (CodePoint.ofChar '0') ++ ofNat digits,
      c.isDigit = true := by
    intro c hc
    rcases List.mem_append.mp hc with hmem | hmem
    · exact isDigit_of_mem_zeros hmem
    · exact isDigit_of_mem_ofNat hmem
  have hwhole : IsWhole [CodePoint.ofChar '0'] := ⟨_, _, rfl, by decide, fun _ ↦ rfl⟩
  have hspelling := IsSpelling.mk hwhole hpart .none (.inl (by simp))
  rw [fraction_of_ne_nil (by simp), List.append_nil, List.singleton_append, List.singleton_append,
    digitNumber_zero_cons hpart, digitNumber_zeros_append _ fun c ↦ isDigit_of_mem_ofNat,
    digitNumber_ofNat, List.length_append, List.length_replicate, Nat.cast_add, Int.zero_sub]
    at hspelling
  exact hspelling

/-- A whole number takes zeros up to the point and one behind it. -/
private theorem isSpelling_whole (zeros : ℕ) (h : digits ≠ 0) :
    IsSpelling (ofNat digits ++ List.replicate zeros (CodePoint.ofChar '0') ++
      [CodePoint.ofChar '.', CodePoint.ofChar '0']) ⟨digits * 10 ^ (zeros + 1), -1⟩ := by
  have hzeros : ∀ c ∈ List.replicate zeros (CodePoint.ofChar '0'), c.isDigit = true :=
    fun c ↦ isDigit_of_mem_zeros
  have hspelling := IsSpelling.mk (isWhole_append h hzeros)
    (show ∀ c ∈ [CodePoint.ofChar '0'], c.isDigit = true by decide) .none (.inl (by simp))
  have hvalue : digitNumber (ofNat digits ++ List.replicate zeros (CodePoint.ofChar '0') ++
      [CodePoint.ofChar '0']) = digits * 10 ^ (zeros + 1) := by
    rw [List.append_assoc, ← List.replicate_succ',
      digitNumber_append _ fun c ↦ isDigit_of_mem_zeros, digitNumber_zeros, digitNumber_ofNat,
      List.length_replicate, Nat.add_zero]
  rw [hvalue, List.append_nil] at hspelling
  exact hspelling

/-- The point, with or without a power of ten, may stand between any two digits. -/
private theorem isSpelling_split {n : ℕ} {power : Text} {p : ℤ} (hdigits : digits ≠ 0) (hn : n ≠ 0)
    (hpower : IsPower power p) (h : n < (ofNat digits).length ∨ power ≠ []) :
    IsSpelling ((ofNat digits).take n ++ fraction ((ofNat digits).drop n) ++ power)
      ⟨digits, p - ((ofNat digits).length - n : ℕ)⟩ := by
  have hne : (ofNat digits).drop n ≠ [] ∨ power ≠ [] := by
    refine h.imp_left fun hlt hnil ↦ ?_
    have := List.drop_eq_nil_iff.mp hnil
    omega
  have hspelling := IsSpelling.mk (isWhole_take hdigits hn)
    (fun c hc ↦ isDigit_of_mem_ofNat (List.mem_of_mem_drop hc)) hpower hne
  rw [List.take_append_drop, digitNumber_ofNat, List.length_drop] at hspelling
  exact hspelling

private theorem decimalValue_shift (digits : ℕ) (h : 0 ≤ exponent) :
    decimalValue (digits * 10 ^ (exponent.toNat + 1)) (-1) = decimalValue digits exponent := by
  obtain ⟨j, rfl⟩ : ∃ j : ℕ, exponent = j := ⟨exponent.toNat, by omega⟩
  unfold decimalValue
  rw [Int.toNat_natCast, zpow_natCast, pow_succ]
  push_cast
  rw [mul_assoc, mul_assoc, zpow_neg_one, mul_inv_cancel₀ (by norm_num), mul_one]

/-- A number that is written without a power of ten has few digits. -/
private theorem log2_positional_le (h : 0 ≤ exponent)
    (htop : exponent + (ofNat digits).length - 1 ≤ layout.greatestPositional) :
    (digits * 10 ^ (exponent.toNat + 1)).log2 ≤ 10000 := by
  have hlength : 0 < (ofNat digits).length := List.length_pos_iff.mpr (ofNat_ne_nil digits)
  have hlt : digits < 10 ^ (ofNat digits).length := (length_ofNat_le_iff hlength).mp le_rfl
  change _ ≤ (15 : ℤ) at htop
  have hprod : digits * 10 ^ (exponent.toNat + 1) < 2 ^ 64 := calc
    digits * 10 ^ (exponent.toNat + 1)
      < 10 ^ (ofNat digits).length * 10 ^ (exponent.toNat + 1) := by gcongr
    _ = 10 ^ ((ofNat digits).length + (exponent.toNat + 1)) := (Nat.pow_add ..).symm
    _ ≤ 10 ^ 17 := Nat.pow_le_pow_right (by decide) (by omega)
    _ < 2 ^ 64 := by norm_num
  rcases Nat.eq_zero_or_pos (digits * 10 ^ (exponent.toNat + 1)) with hzero | hpos
  · rw [hzero]
    decide
  · have hlog := (Nat.log2_lt hpos.ne').mpr hprod
    omega

/-- The text of a decimal other than zero is a spelling of its value. -/
theorem isSpelling_decimalText (exponent : ℤ) (hdigits : digits ≠ 0) (hsize : digits.log2 ≤ 10000) :
    ∃ d : Decimal, IsSpelling (decimalText layout digits exponent) d ∧ d.digits.log2 ≤ 10000 ∧
      decimalValue d.digits d.exponent = decimalValue digits exponent := by
  have hlength : 0 < (ofNat digits).length := List.length_pos_iff.mpr (ofNat_ne_nil digits)
  unfold decimalText
  dsimp only
  split
  · next htop =>
    split
    · next hsmall =>
      refine ⟨_, isSpelling_small _, hsize, ?_⟩
      dsimp only
      congr 1
      omega
    · next hlarge =>
      split
      · next hwhole =>
        have hdecimal := decimalValue_shift digits hwhole
        have hpositional := log2_positional_le hwhole htop.2
        exact ⟨_, isSpelling_whole exponent.toNat hdigits, hpositional, hdecimal⟩
      · next hpart =>
        have hlt : (exponent + (ofNat digits).length - 1).toNat + 1 < (ofNat digits).length := by
          omega
        have hspelling := isSpelling_split hdigits (Nat.succ_ne_zero _) .none (.inl hlt)
        rw [fraction_of_ne_nil (by simpa using hlt), List.append_nil] at hspelling
        refine ⟨_, hspelling, hsize, ?_⟩
        dsimp only
        congr 1
        omega
  · next htop =>
    have hspelling := isSpelling_split hdigits Nat.one_ne_zero
      (isPower_exponentText layout.exponentWidth (exponent + (ofNat digits).length - 1))
      (.inr (by simp))
    rw [fraction_drop_one] at hspelling
    refine ⟨_, hspelling, hsize, ?_⟩
    dsimp only
    congr 1
    omega

/-- The digits of a number in its form are a spelling of a decimal that is rounded to it. -/
theorem exists_isSpelling {negative : Bool} {m : ℕ} {e : ℤ} (infinity nan : Text)
    (h : (finite negative m e).IsCanonical) :
    ∃ body d, textWith infinity nan (.finite negative m e) =
        (if negative then CodePoint.ofChar '-' :: body else body) ∧
      IsSpelling body d ∧ ofDecimal negative d.digits d.exponent = .finite negative m e := by
  by_cases hm : m = 0
  · subst hm
    have hzero : IsWhole [CodePoint.ofChar '0'] := ⟨_, _, rfl, by decide, fun _ ↦ rfl⟩
    have he : e = leastExponent := h.2.2.2.resolve_right (by decide)
    have hdigit : ∀ c ∈ [CodePoint.ofChar '0'], c.isDigit = true := by decide
    exact ⟨_, _, by rw [textWith, if_pos rfl]; rfl, .mk hzero hdigit .none (.inl (by decide)),
      by rw [he]; rfl⟩
  · have hunsigned : (finite false m e).IsCanonical := h
    obtain ⟨hne, hsize, hnumber⟩ := ofDecimal_digits hunsigned hm
    obtain ⟨d, hspelling, hlog, hvalue⟩ := isSpelling_decimalText (digits m e).2 hne hsize
    refine ⟨_, d, by rw [textWith, if_neg hm], hspelling, ?_⟩
    exact ofDecimal_congr hnumber hm hvalue (by omega) negative

end Binary64

end StoryCatalog
