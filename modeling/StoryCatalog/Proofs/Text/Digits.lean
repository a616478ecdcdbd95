import Mathlib.Algebra.Group.Nat.Defs
import StoryCatalog.Text.CodePoint

/-!
# Reading the digits of a number

A natural number is read back from its decimal digits, which begin with a zero only if there is no
other.
-/

namespace StoryCatalog

namespace CodePoint

variable {n : Nat}

theorem val_ofDigit (h : n < 10) : (ofDigit n).val = 0x30 + n := by simp [ofDigit, h]

theorem isDigit_ofDigit (h : n < 10) : (ofDigit n).isDigit = true := by
  simp only [isDigit, val_ofDigit h, Bool.and_eq_true, decide_eq_true_eq]
  omega

theorem digitValue?_ofDigit (h : n < 10) : (ofDigit n).digitValue? = some n := by
  rw [digitValue?, if_pos (isDigit_ofDigit h), val_ofDigit h]
  exact congrArg some (by omega)

/-- A digit is the one that stands for its value. -/
theorem exists_eq_ofDigit {c : CodePoint} (h : c.isDigit = true) : ∃ n < 10, c = ofDigit n := by
  simp only [isDigit, Bool.and_eq_true, decide_eq_true_eq] at h
  have hlt : c.val - 0x30 < 10 := by omega
  refine ⟨c.val - 0x30, hlt, CodePoint.ext ?_⟩
  rw [val_ofDigit hlt]
  omega

private theorem ofChar_digitChar (h : n < 10) : ofChar n.digitChar = ofDigit n :=
  CodePoint.ext ((Nat.toNat_digitChar_of_lt_ten h).trans (val_ofDigit h).symm)

theorem hexValue?_lt {c : CodePoint} (h : c.hexValue? = some n) : n < 16 := by
  unfold hexValue? isDigit at h
  grind

end CodePoint

namespace Text

open CodePoint

/-! ### Numbers of digits -/

variable {base : Nat}

@[simp] theorem readDigits_nil : readDigits base [] = 0 := rfl

/-- Further digits raise the value of the ones before by their place. -/
theorem readDigits_append (digits more : List Nat) :
    readDigits base (digits ++ more) =
      readDigits base digits * base ^ more.length + readDigits base more := by
  have hfrom : ∀ (more : List Nat) (n : Nat), more.foldl (fun n digit ↦ n * base + digit) n =
      n * base ^ more.length + readDigits base more := by
    intro more
    induction more with
    | nil => simp
    | cons digit rest ih =>
      intro n
      simp only [readDigits, List.foldl_cons, List.length_cons] at ih ⊢
      rw [ih, ih (0 * base + digit), Nat.pow_succ]
      grind
  rw [readDigits, List.foldl_append]
  exact hfrom more _

/-- The number is below the power of the base that has one digit more. -/
theorem readDigits_lt {digits : List Nat} (h : ∀ d ∈ digits, d < base) :
    readDigits base digits < base ^ digits.length := by
  induction digits with
  | nil => simp
  | cons digit rest ih =>
    obtain ⟨hdigit, hrest⟩ := List.forall_mem_cons.mp h
    have hvalue : readDigits base (digit :: rest) =
        digit * base ^ rest.length + readDigits base rest := by
      rw [← List.singleton_append, readDigits_append]
      simp [readDigits]
    have hle : (digit + 1) * base ^ rest.length ≤ base * base ^ rest.length :=
      Nat.mul_le_mul_right _ hdigit
    rw [hvalue, List.length_cons, Nat.pow_succ]
    have hlt := ih hrest
    grind

/-- The number that a text of decimal digits denotes. -/
def digitNumber (t : Text) : Nat := readDigits 10 (t.filterMap digitValue?)

@[simp] theorem digitNumber_nil : digitNumber [] = 0 := rfl

theorem length_filterMap_digitValue? {t : Text} (h : ∀ c ∈ t, c.isDigit = true) :
    (t.filterMap digitValue?).length = t.length := by
  induction t with
  | nil => rfl
  | cons c rest ih =>
    obtain ⟨hc, hrest⟩ := List.forall_mem_cons.mp h
    simp [digitValue?, hc, ih hrest]

theorem digitNumber_append (s : Text) {t : Text} (h : ∀ c ∈ t, c.isDigit = true) :
    digitNumber (s ++ t) = digitNumber s * 10 ^ t.length + digitNumber t := by
  rw [digitNumber, List.filterMap_append, readDigits_append, length_filterMap_digitValue? h]
  rfl

theorem digitNumber_ofDigit {n : Nat} (h : n < 10) : digitNumber [ofDigit n] = n := by
  simp [digitNumber, digitValue?_ofDigit h, readDigits]

theorem digitNumber_map_ofDigit {digits : List Nat} (h : ∀ d ∈ digits, d < 10) :
    digitNumber (digits.map ofDigit) = readDigits 10 digits := by
  refine congrArg (readDigits 10) ?_
  induction digits with
  | nil => rfl
  | cons d rest ih =>
    obtain ⟨hd, hrest⟩ := List.forall_mem_cons.mp h
    rw [List.map_cons, List.filterMap_cons_some (digitValue?_ofDigit hd), ih hrest]

/-- Zeros in front do not count. -/
theorem digitNumber_zeros (n : Nat) :
    digitNumber (List.replicate n (CodePoint.ofChar '0')) = 0 := by
  induction n with
  | zero => rfl
  | succ n ih =>
    rw [List.replicate_succ', digitNumber_append _ (by decide), ih]
    decide

/-! ### The digits of a number -/

/-- The digits of a number are those of its tenth and the last one. -/
theorem ofNat_eq_if (n : Nat) :
    ofNat n = if n < 10 then [ofDigit n] else ofNat (n / 10) ++ [ofDigit (n % 10)] := by
  unfold ofNat
  rw [Nat.toDigits_eq_if (by decide)]
  split
  · next h => simp [ofChar_digitChar h]
  · next h => simp [ofChar_digitChar (Nat.mod_lt n (by decide : 0 < 10))]

theorem isDigit_of_mem_ofNat {n : Nat} {c : CodePoint} (h : c ∈ ofNat n) : c.isDigit = true := by
  induction n using Nat.strongRecOn with
  | ind n ih =>
    rw [ofNat_eq_if] at h
    split at h
    · next hn =>
      rw [List.mem_singleton.mp h]
      exact isDigit_ofDigit hn
    · next hn =>
      rcases List.mem_append.mp h with hmem | hmem
      · exact ih (n / 10) (by omega) hmem
      · rw [List.mem_singleton.mp hmem]
        exact isDigit_ofDigit (Nat.mod_lt n (by decide))

/-- A number is read back from its digits. -/
@[simp] theorem digitNumber_ofNat (n : Nat) : digitNumber (ofNat n) = n := by
  induction n using Nat.strongRecOn with
  | ind n ih =>
    rw [ofNat_eq_if]
    split
    · next hn => exact digitNumber_ofDigit hn
    · next hn =>
      have hlast : n % 10 < 10 := Nat.mod_lt n (by decide)
      rw [digitNumber_append _ (by simp [isDigit_ofDigit hlast]), ih (n / 10) (by omega),
        digitNumber_ofDigit hlast]
      simp only [List.length_singleton, Nat.pow_one]
      omega

/-- The first digit of a number other than zero is no zero. -/
theorem exists_ofNat_eq_cons {n : Nat} (h : n ≠ 0) :
    ∃ d rest, d ≠ 0 ∧ d < 10 ∧ ofNat n = ofDigit d :: rest := by
  induction n using Nat.strongRecOn with
  | ind n ih =>
    rw [ofNat_eq_if]
    split
    · next hn => exact ⟨n, [], h, hn, rfl⟩
    · next hn =>
      obtain ⟨d, rest, hd, hlt, heq⟩ := ih (n / 10) (by omega) (by omega)
      exact ⟨d, rest ++ [ofDigit (n % 10)], hd, hlt, by rw [heq, List.cons_append]⟩

@[simp] theorem ofNat_ne_nil (n : Nat) : ofNat n ≠ [] := by
  simp [ofNat]

theorem length_ofNat (n : Nat) : (ofNat n).length = (Nat.toDigits 10 n).length := by
  simp [ofNat]

/-- A number has at most so many digits exactly if it is below that power of ten. -/
theorem length_ofNat_le_iff {n k : Nat} (h : 0 < k) : (ofNat n).length ≤ k ↔ n < 10 ^ k := by
  rw [length_ofNat]
  exact Nat.length_toDigits_le_iff (by decide) h

/-- What is taken from the start of a text ends where code points of another kind begin. -/
theorem takeWhile_append {p : CodePoint → Bool} {t rest : Text} (h : ∀ c ∈ t, p c = true)
    (hrest : ∀ c ∈ rest.head?, p c = false) : (t ++ rest).takeWhile p = t := by
  rw [List.takeWhile_append_of_pos h]
  cases rest with
  | nil => simp
  | cons c rest => simp [hrest c rfl]

end Text

end StoryCatalog
