import Mathlib.Data.List.TakeWhile
import StoryCatalog.Json.Printer
import StoryCatalog.Json.Reader
import StoryCatalog.Proofs.Number.Spelling

/-!
# Reading numbers back

What is printed for a number reads back as the number, wherever the text goes on with something that
does not continue a number.
-/

namespace StoryCatalog

/-- An integer is within the limit exactly if it has no more digits. -/
theorem Number.fitsLimit_iff {n : ℤ} :
    fitsLimit n = true ↔ (Text.ofNat n.natAbs).length ≤ digitLimit := by
  have hiff : ∀ k, 0 < k → (decide (n.natAbs < Nat.pow 10 k) = true ↔
      (Text.ofNat n.natAbs).length ≤ k) := by
    intro k hk
    rw [decide_eq_true_eq, Nat.pow_eq, Text.length_ofNat_le_iff hk]
  exact hiff digitLimit (by decide)

namespace Json

open Decimal Text

/-- A text does not continue a number in front of it. -/
def EndsNumber (t : Text) : Prop :=
  ∀ c ∈ t.head?, c.isDigit = false ∧ c.val ≠ 0x2E ∧ c.val ≠ 0x65 ∧ c.val ≠ 0x45

/-! ### The parts of a number -/

private theorem isDigit_eq_false {c : CodePoint} (h : c.val < 0x30 ∨ 0x39 < c.val) :
    c.isDigit = false := by
  simp only [CodePoint.isDigit, Bool.and_eq_false_iff, decide_eq_false_iff_not]
  omega

theorem wholeDigits_append {whole rest : Text} (h : IsWhole whole)
    (hrest : ∀ c ∈ rest.head?, c.isDigit = false) : wholeDigits (whole ++ rest) = whole := by
  obtain ⟨c, more, rfl, hdigits, hzero⟩ := h
  rw [List.cons_append, wholeDigits]
  split
  · next hc => rw [hzero hc]
  · next hc => exact takeWhile_append hdigits hrest

theorem partDigits_append {part rest : Text} (h : ∀ c ∈ part, c.isDigit = true)
    (hrest : ∀ c ∈ rest.head?, c.isDigit = false ∧ c.val ≠ 0x2E) :
    partDigits (fraction part ++ rest) = part := by
  rw [fraction]
  split
  · next hempty =>
    rw [List.isEmpty_iff.mp hempty, List.nil_append]
    cases rest with
    | nil => rfl
    | cons c rest => rw [partDigits, if_neg (hrest c rfl).2]
  · next hne =>
    rw [List.cons_append, partDigits, if_pos (by rfl)]
    exact takeWhile_append h fun c hc ↦ (hrest c hc).1

theorem powerText_append {power rest : Text} {p : ℤ} (h : IsPower power p)
    (hrest : EndsNumber rest) : powerText (power ++ rest) = power := by
  have hdigit : ∀ c ∈ rest.head?, c.isDigit = false := fun c hc ↦ (hrest c hc).1
  cases h with
  | none =>
    cases rest with
    | nil => rfl
    | cons c rest =>
      obtain ⟨-, -, hlower, hupper⟩ := hrest c rfl
      simp [powerText, hlower, hupper]
  | positive hne hdigits =>
    simp [powerText, takeWhile_append hdigits hdigit, hne]
  | negative hne hdigits =>
    simp [powerText, takeWhile_append hdigits hdigit, hne]

private theorem takeDigits_of_forall {digits : Text} (h : ∀ c ∈ digits, c.isDigit = true) :
    takeDigits digits = (digits.filterMap CodePoint.digitValue?, []) := by
  have htake : digits.takeWhile CodePoint.isDigit = digits := List.takeWhile_eq_self_iff.mpr h
  have hdrop : digits.dropWhile CodePoint.isDigit = [] := List.dropWhile_eq_nil_iff.mpr h
  rw [takeDigits, htake, hdrop]

private theorem filterMap_digitValue?_ne_nil {digits : Text} (hne : digits ≠ [])
    (h : ∀ c ∈ digits, c.isDigit = true) : digits.filterMap CodePoint.digitValue? ≠ [] := by
  obtain ⟨c, rest, rfl⟩ := List.exists_cons_of_ne_nil hne
  simp [CodePoint.digitValue?, h c List.mem_cons_self]

theorem readPower?_of_isPower {power : Text} {p : ℤ} (h : IsPower power p) :
    readPower? power = some p := by
  cases h with
  | none => rfl
  | positive hne hdigits =>
    have hvalues := filterMap_digitValue?_ne_nil hne hdigits
    have hsign : ∀ t, takeSign (CodePoint.ofChar '+' :: t) = (false, t) := fun t ↦ rfl
    simp [readPower?, hsign, takeDigits_of_forall hdigits, hvalues, digitNumber]
  | negative hne hdigits =>
    have hvalues := filterMap_digitValue?_ne_nil hne hdigits
    have hsign : ∀ t, takeSign (CodePoint.ofChar '-' :: t) = (true, t) := fun t ↦ rfl
    simp [readPower?, hsign, takeDigits_of_forall hdigits, hvalues, digitNumber]

/-! ### Whole numbers and numbers with a fraction -/

/-- A text after a minus, if the sign is negative. -/
def signed (negative : Bool) (t : Text) : Text :=
  if negative then CodePoint.ofChar '-' :: t else t

theorem takeMinus_signed (negative : Bool) {whole rest : Text} (h : IsWhole whole) :
    takeMinus (signed negative (whole ++ rest)) = (negative, whole ++ rest) := by
  cases negative with
  | true => rfl
  | false =>
    obtain ⟨c, more, rfl, hdigits, -⟩ := h
    have hc : ¬ c.val = 0x2D := by
      have hdigit := hdigits c List.mem_cons_self
      simp only [CodePoint.isDigit, Bool.and_eq_true, decide_eq_true_eq] at hdigit
      omega
    rw [signed, if_neg Bool.false_ne_true, List.cons_append, takeMinus, if_neg hc]

variable {whole part power rest : Text} {p : ℤ} (negative : Bool) (offset : ℕ)

/-- A number is read from its parts, and what follows them is left. -/
theorem readNumber?_append (hwhole : IsWhole whole) (hpart : ∀ c ∈ part, c.isDigit = true)
    (hpower : IsPower power p) (hrest : EndsNumber rest) :
    ∃ end', readNumber? ⟨offset, signed negative (whole ++ (fraction part ++ (power ++ rest)))⟩ =
      if part = [] ∧ power = [] then
        if Number.digitLimit < whole.length then some (.error (.tooManyDigits whole.length))
        else some (.ok (.int (if negative then -digitNumber whole else digitNumber whole),
          ⟨end', rest⟩))
      else some (.ok (.float (.ofDecimal negative (digitNumber (whole ++ part)) (p - part.length)),
        ⟨end', rest⟩)) := by
  have hpowerHead : ∀ c ∈ (power ++ rest).head?, c.isDigit = false ∧ c.val ≠ 0x2E := by
    cases hpower with
    | none => exact fun c hc ↦ ⟨(hrest c hc).1, (hrest c hc).2.1⟩
    | positive => simp [isDigit_eq_false]
    | negative => simp [isDigit_eq_false]
  have hpartHead : ∀ c ∈ (fraction part ++ (power ++ rest)).head?, c.isDigit = false := by
    rw [fraction]
    split
    · exact fun c hc ↦ (hpowerHead c hc).1
    · simp [isDigit_eq_false]
  have hne : whole.isEmpty = false := by
    obtain ⟨c, more, rfl, -⟩ := hwhole
    rfl
  have hafter : (if part.isEmpty = true then fraction part ++ (power ++ rest)
      else (fraction part ++ (power ++ rest)).drop (part.length + 1)) = power ++ rest := by
    rw [fraction]
    split
    · rfl
    · rw [List.cons_append, List.drop_succ_cons, List.drop_left]
  have hused : (signed negative (whole ++ (fraction part ++ (power ++ rest)))).drop
      ((if negative = true then 1 else 0) + whole.length +
        (if part.isEmpty = true then 0 else part.length + 1) + power.length) = rest := by
    have hlength :
        (if part.isEmpty = true then 0 else part.length + 1) = (fraction part).length := by
      rw [fraction]
      split <;> rfl
    have hsigned : signed negative (whole ++ (fraction part ++ (power ++ rest))) =
        signed negative [] ++ whole ++ fraction part ++ power ++ rest := by
      cases negative <;> simp [signed]
    rw [hsigned, hlength]
    refine List.drop_left' ?_
    cases negative <;> simp [signed] <;> omega
  refine ⟨offset + ((if negative = true then 1 else 0) + whole.length +
        (if part.isEmpty = true then 0 else part.length + 1) + power.length), ?_⟩
  unfold readNumber? Cursor.advance
  simp only [takeMinus_signed negative hwhole, wholeDigits_append hwhole hpartHead, hne,
    List.drop_left, partDigits_append hpart hpowerHead, hafter, powerText_append hpower hrest,
    hused, readPower?_of_isPower hpower, Bool.false_eq_true, if_false, Option.getD_some]
  exact if_congr (by simp) rfl rfl

/-- An integer within the limit is read back. -/
theorem readNumber?_ofInt {n : ℤ} (h : Number.fitsLimit n = true) (hrest : EndsNumber rest) :
    ∃ end', readNumber? ⟨offset, ofInt n ++ rest⟩ = some (.ok (.int n, ⟨end', rest⟩)) := by
  have hlength : ¬ Number.digitLimit < (ofNat n.natAbs).length :=
    Nat.not_lt.mpr (Number.fitsLimit_iff.mp h)
  obtain ⟨end', hread⟩ := readNumber?_append (decide (n < 0)) offset
    (isWhole_ofNat n.natAbs) (List.forall_mem_nil _) .none hrest
  refine ⟨end', ?_⟩
  rw [if_pos ⟨rfl, rfl⟩, if_neg hlength, digitNumber_ofNat] at hread
  have hvalue : (if decide (n < 0) = true then -(n.natAbs : ℤ) else n.natAbs) = n := by
    split
    · next hn =>
      rw [decide_eq_true_eq] at hn
      omega
    · next hn =>
      rw [decide_eq_true_eq] at hn
      omega
  rw [hvalue] at hread
  have htext : ofInt n ++ rest =
      signed (decide (n < 0)) (ofNat n.natAbs ++ (fraction [] ++ ([] ++ rest))) := by
    by_cases hn : n < 0 <;> simp [ofInt, signed, hn, fraction]
  rw [htext, hread]

/-- A spelling is read as the number that its decimal is rounded to. -/
theorem readNumber?_of_isSpelling {body : Text} {d : Decimal} (h : IsSpelling body d)
    (hrest : EndsNumber rest) :
    ∃ end', readNumber? ⟨offset, signed negative body ++ rest⟩ =
      some (.ok (.float (.ofDecimal negative d.digits d.exponent), ⟨end', rest⟩)) := by
  obtain ⟨hwhole, hpart, hpower, hne⟩ := h
  obtain ⟨end', hread⟩ := readNumber?_append negative offset hwhole hpart hpower hrest
  refine ⟨end', ?_⟩
  rw [if_neg (by rwa [not_and_or])] at hread
  rw [← hread]
  cases negative <;> simp [signed]

/-! ### Numbers among the scalars -/

private theorem not_sees {word : String} {c d : CodePoint}
    (hword : (Text.ofString word).head? = some d) (h : c.val ≠ d.val) :
    Cursor.sees ⟨offset, c :: rest⟩ word = false := by
  obtain ⟨more, hmore⟩ := List.head?_eq_some_iff.mp hword
  have hne : ¬ d = c := fun heq ↦ h (congrArg CodePoint.val heq.symm)
  rw [Cursor.sees, startsWith, hmore, List.isPrefixOf, beq_eq_false_iff_ne.mpr hne, Bool.false_and]

private theorem not_sees_minusInfinity {c : CodePoint} (h : c.isDigit = true) :
    Cursor.sees ⟨offset, CodePoint.ofChar '-' :: c :: rest⟩ "-Infinity" = false := by
  have hword : Text.ofString "-Infinity" =
    CodePoint.ofChar '-' :: CodePoint.ofChar 'I' :: Text.ofString "nfinity" := rfl
  have hne : ¬ CodePoint.ofChar 'I' = c := by
    rintro rfl
    exact absurd h (by decide)
  rw [Cursor.sees, startsWith, hword, List.isPrefixOf, List.isPrefixOf,
    beq_eq_false_iff_ne.mpr hne, Bool.false_and, Bool.and_false]

/-- A text that begins with a digit, or with a minus and a digit, holds no word. -/
theorem readScalar_signed {c : CodePoint} {more : Text} {n : Number} {cursor : Cursor}
    (h : c.isDigit = true)
    (hread : readNumber? ⟨offset, signed negative (c :: more)⟩ = some (.ok (n, cursor))) :
    readScalar ⟨offset, signed negative (c :: more)⟩ = .ok (.number n, cursor) := by
  have hhead : ∃ d tail, signed negative (c :: more) = d :: tail ∧ d.val < 0x3A := by
    simp only [CodePoint.isDigit, Bool.and_eq_true, decide_eq_true_eq] at h
    cases negative with
    | true => exact ⟨_, _, rfl, by decide⟩
    | false => exact ⟨_, _, rfl, by omega⟩
  have hinfinity : Cursor.sees ⟨offset, signed negative (c :: more)⟩ "-Infinity" = false := by
    cases negative with
    | true => exact not_sees_minusInfinity offset h
    | false =>
      refine not_sees offset (d := CodePoint.ofChar '-') rfl ?_
      rintro hc
      rw [CodePoint.ext (d := CodePoint.ofChar '-') hc] at h
      exact absurd h (by decide)
  obtain ⟨d, tail, htext, hd⟩ := hhead
  rw [htext] at hread hinfinity ⊢
  have hword : ∀ word e, (Text.ofString word).head? = some e → 0x3A ≤ e.val →
      Cursor.sees ⟨offset, d :: tail⟩ word = false := by
    intro word e hword he
    exact not_sees offset hword (by omega)
  rw [readScalar, hword "null" (CodePoint.ofChar 'n') rfl (by decide),
    hword "true" (CodePoint.ofChar 't') rfl (by decide),
    hword "false" (CodePoint.ofChar 'f') rfl (by decide),
    hword "NaN" (CodePoint.ofChar 'N') rfl (by decide),
    hword "Infinity" (CodePoint.ofChar 'I') rfl (by decide), hinfinity]
  simp only [Bool.false_eq_true, if_false]
  rw [hread]

private theorem isSpelling_head {body : Text} {d : Decimal} (h : IsSpelling body d) :
    ∃ c more, body = c :: more ∧ c.isDigit = true := by
  obtain ⟨⟨c, more, rfl, hdigits, -⟩, -, -, -⟩ := h
  exact ⟨c, _, rfl, hdigits c List.mem_cons_self⟩

private theorem ofInt_head (n : ℤ) :
    ∃ c more, ofInt n = signed (decide (n < 0)) (c :: more) ∧ c.isDigit = true := by
  obtain ⟨c, more, hcons, hdigits, -⟩ := isWhole_ofNat n.natAbs
  refine ⟨c, more, ?_, hdigits c (by rw [hcons]; exact List.mem_cons_self)⟩
  by_cases hn : n < 0 <;> simp [ofInt, signed, hn, hcons]

private theorem signed_append (negative : Bool) (s t : Text) :
    signed negative s ++ t = signed negative (s ++ t) := by
  cases negative <;> rfl

private theorem signed_head {c : CodePoint} (hc : c.isDigit = true) (negative : Bool)
    (more : Text) :
    ∃ d tail, signed negative (c :: more) = d :: tail ∧ 0x2D ≤ d.val ∧ d.val < 0x5B := by
  simp only [CodePoint.isDigit, Bool.and_eq_true, decide_eq_true_eq] at hc
  cases negative with
  | true => exact ⟨_, _, rfl, by decide, by decide⟩
  | false => exact ⟨_, _, rfl, by omega, by omega⟩

/-- A number begins with a minus, a digit or a letter. -/
theorem exists_head_printNumber {n : Number} {t : Text} (hprint : printNumber n = .ok t)
    (hn : ∀ x, n = .float x → x.IsCanonical) :
    ∃ c more, t = c :: more ∧ 0x2D ≤ c.val ∧ c.val < 0x5B := by
  cases n with
  | int n =>
    rw [printNumber] at hprint
    split at hprint
    · cases hprint
      obtain ⟨c, more, htext, hc⟩ := ofInt_head n
      rw [htext]
      exact signed_head hc _ more
    · cases hprint
  | float x =>
    rw [printNumber, Except.ok.injEq] at hprint
    subst hprint
    cases x with
    | nan => exact ⟨_, _, rfl, by decide, by decide⟩
    | infinite negative => cases negative <;> exact ⟨_, _, rfl, by decide, by decide⟩
    | finite negative m e =>
      obtain ⟨body, d, htext, hspelling, -⟩ :=
        Binary64.exists_isSpelling "Infinity" "NaN" (hn _ rfl)
      obtain ⟨c, more, rfl, hc⟩ := isSpelling_head hspelling
      rw [htext]
      exact signed_head hc negative more

/-- A number is read back from what is printed for it. -/
theorem readScalar_printNumber {n : Number} {t : Text} (hprint : printNumber n = .ok t)
    (hn : ∀ x, n = .float x → x.IsCanonical) (hrest : EndsNumber rest) :
    ∃ end', readScalar ⟨offset, t ++ rest⟩ = .ok (.number n, ⟨end', rest⟩) := by
  cases n with
  | int n =>
    rw [printNumber] at hprint
    split at hprint
    · next hfits =>
      cases hprint
      obtain ⟨end', hread⟩ := readNumber?_ofInt offset hfits hrest
      obtain ⟨c, more, htext, hc⟩ := ofInt_head n
      rw [htext, signed_append, List.cons_append] at hread ⊢
      exact ⟨end', readScalar_signed _ offset hc hread⟩
    · cases hprint
  | float x =>
    rw [printNumber, Except.ok.injEq] at hprint
    subst hprint
    cases x with
    | nan => exact ⟨offset + 3, rfl⟩
    | infinite negative =>
      cases negative with
      | false => exact ⟨offset + 8, rfl⟩
      | true => exact ⟨offset + 9, rfl⟩
    | finite negative m e =>
      obtain ⟨body, d, htext, hspelling, hvalue⟩ :=
        Binary64.exists_isSpelling "Infinity" "NaN" (hn _ rfl)
      obtain ⟨end', hread⟩ := readNumber?_of_isSpelling negative offset hspelling hrest
      obtain ⟨c, more, rfl, hc⟩ := isSpelling_head hspelling
      rw [hvalue, signed_append, List.cons_append] at hread
      rw [htext]
      change ∃ end', readScalar ⟨offset, signed negative (c :: more) ++ rest⟩ = _
      rw [signed_append, List.cons_append]
      exact ⟨end', readScalar_signed _ offset hc hread⟩

end Json

end StoryCatalog
