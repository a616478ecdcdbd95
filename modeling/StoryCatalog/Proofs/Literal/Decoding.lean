import StoryCatalog.Literal.Expression
import StoryCatalog.Proofs.Number.Decimal
import StoryCatalog.Proofs.Text.Digits

/-!
# Literals that have no value

Of all literals of a story file only two kinds can fail to have a value: an escape in braces that
names a number beyond the last code point, and an integer of too many digits as the name of a
member. `Expression.ofTree` fails exactly if one of the literals that it decodes does
(`ofTree_error_iff`).
-/

namespace StoryCatalog

/-- A spelling in a story file that has to be decoded: of an escape sequence, or of a number that
names a member. -/
inductive Literal where
  | escape (token : Text)
  | key (spelling : Text)

namespace Literal

/-- The escape sequence of hexadecimal digits in braces. -/
def braced (digits : Text) : Text :=
  [CodePoint.ofChar '\\', CodePoint.ofChar 'u', CodePoint.ofChar '\x7b'] ++ digits ++
    [CodePoint.ofChar '\x7d']

/-- The literals that have no value, and why. -/
inductive Fails : Literal → LiteralError → Prop where
  /-- There is no code point with the number. -/
  | outOfRange {digits : Text} : digits.all CodePoint.isHexDigit = true →
    0x110000 ≤ Escape.hexNumber digits → Escape.hexNumber digits < 2 ^ 31 →
    Fails (.escape (braced digits)) .codePointOutOfRange
  /-- The number is not even a machine integer. -/
  | tooLarge {digits : Text} : digits.all CodePoint.isHexDigit = true →
    2 ^ 31 ≤ Escape.hexNumber digits → Fails (.escape (braced digits)) .codePointTooLarge
  /-- The number has no decimal text. -/
  | tooManyDigits {spelling : Text} {n : Int} : Numeral.read? spelling = some (.int n) →
    10 ^ Number.digitLimit ≤ n.natAbs → Fails (.key spelling) .tooManyDigits

/-- Why a literal has no value, if it has none. -/
def fault? : Literal → Option LiteralError
  | .escape token =>
    match Escape.decode token with
    | .ok _ => none
    | .error e => some e
  | .key spelling =>
    match Expression.keyOf (.number spelling) with
    | .ok _ => none
    | .error e => some e

end Literal

theorem map_error_iff {ε α β : Type} {f : α → β} {x : Except ε α} {e : ε} :
    x.map f = .error e ↔ x = .error e := by
  cases x <;> simp [Except.map]

/-! ### Escape sequences -/

namespace Escape

theorem pointOf_error_iff {n : Nat} {e : LiteralError} :
    pointOf n = .error e ↔ 0x110000 ≤ n ∧
      e = if n < 2 ^ 31 then .codePointOutOfRange else .codePointTooLarge := by
  unfold pointOf CodePoint.ofNat?
  by_cases h : n < 0x110000
  · simp [h, Nat.not_le.mpr h]
  · simp only [h, dite_false, Nat.not_lt.mp h, true_and, Except.error.injEq, Nat.pow_eq]
    exact eq_comm

theorem hexNumber_lt {digits : Text} {n : Nat} (h : digits.length ≤ n) :
    hexNumber digits < 16 ^ n := by
  have hdigits : ∀ d ∈ digits.filterMap CodePoint.hexValue?, d < 16 := by
    intro d hd
    obtain ⟨c, -, hc⟩ := List.mem_filterMap.mp hd
    exact CodePoint.hexValue?_lt hc
  have hlength : (digits.filterMap CodePoint.hexValue?).length ≤ n :=
    Nat.le_trans (List.length_filterMap_le ..) h
  exact Nat.lt_of_lt_of_le (Text.readDigits_lt hdigits) (Nat.pow_le_pow_right (by decide) hlength)

/-- A sequence that names no code point stands in braces. -/
theorem numbered?_eq_braced {t digits : Text} {length : Nat}
    (h : numbered? t = some (length, digits)) (hbeyond : 0x110000 ≤ hexNumber digits) :
    length = digits.length + 3 ∧ digits.all CodePoint.isHexDigit = true ∧
      ∃ rest, CodePoint.ofChar '\\' :: t = Literal.braced digits ++ rest := by
  have hlong : ¬ digits.length ≤ 4 := by
    intro hle
    have := hexNumber_lt hle
    omega
  unfold numbered? at h
  split at h
  · cases h
  · next c rest =>
    split at h
    · next hu =>
      simp only [HOrElse.hOrElse, OrElse.orElse, Option.orElse_eq_or, Option.or_eq_some_iff] at h
      rcases h with hbraces | ⟨-, hfour⟩
      · split at hbraces
        · next d body =>
          split at hbraces
          · next hopen =>
            split at hbraces
            · next e after hafter =>
              split at hbraces
              · next hclose =>
                simp only [Bool.and_eq_true, decide_eq_true_eq] at hclose
                cases hbraces
                have hbody := List.prefix_iff_eq_append.mp
                  (List.takeWhile_prefix (l := body) CodePoint.isHexDigit)
                have hc : c = CodePoint.ofChar 'u' := CodePoint.ext hu
                have hd : d = CodePoint.ofChar '\x7b' := CodePoint.ext hopen
                have he : e = CodePoint.ofChar '\x7d' := CodePoint.ext hclose.1
                rw [hafter] at hbody
                refine ⟨rfl, List.all_takeWhile, after, ?_⟩
                simp [Literal.braced, hc, hd, ← he, hbody]
              · cases hbraces
            · cases hbraces
          · cases hbraces
        · cases hbraces
      · split at hfour
        · next hlength =>
          cases hfour
          exact absurd (Nat.le_of_eq hlength) hlong
        · cases hfour
    · split at h
      · dsimp only at h
        split at h
        · next hlength =>
          cases h
          exact absurd (by omega) hlong
        · cases h
      · cases h

private theorem takeWhile_braced {digits : Text} (h : digits.all CodePoint.isHexDigit = true)
    (t : Text) :
    (digits ++ CodePoint.ofChar '\x7d' :: t).takeWhile CodePoint.isHexDigit = digits := by
  rw [List.takeWhile_append_of_pos (by simpa using h)]
  simp [show CodePoint.isHexDigit (CodePoint.ofChar '\x7d') = false by decide]

/-- Hexadecimal digits in braces are found whatever stands behind them. -/
theorem numbered?_braced {digits : Text} (h : digits.all CodePoint.isHexDigit = true)
    (hne : digits ≠ []) (t : Text) :
    numbered? (CodePoint.ofChar 'u' :: CodePoint.ofChar '\x7b' ::
      (digits ++ CodePoint.ofChar '\x7d' :: t)) = some (digits.length + 3, digits) := by
  rw [numbered?, if_pos (by decide)]
  dsimp only
  rw [if_pos (by decide), takeWhile_braced h, List.drop_left]
  simp [hne]

/-- Hexadecimal digits in braces are decoded as the number that they denote. -/
theorem decode_braced {digits : Text} (h : digits.all CodePoint.isHexDigit = true)
    (hne : digits ≠ []) :
    decode (Literal.braced digits) = (pointOf (hexNumber digits)).map ([·]) := by
  rw [Literal.braced]
  simp only [List.cons_append, List.nil_append]
  rw [decode, if_pos rfl, numbered?_braced h hne]
  simp

/-- An escape sequence fails to be decoded exactly if it is one in braces that names no code
point. -/
theorem decode_error_iff {token : Text} {e : LiteralError} :
    decode token = .error e ↔ Literal.Fails (.escape token) e := by
  constructor
  · intro h
    unfold decode at h
    split at h
    · next backslash c body =>
      split at h
      · next hbackslash =>
        split at h
        · next length digits hnumbered =>
          split at h
          · next hlength =>
            obtain ⟨hbeyond, he⟩ := pointOf_error_iff.mp (map_error_iff.mp h)
            obtain ⟨hlong, hdigits, rest, hrest⟩ := numbered?_eq_braced hnumbered hbeyond
            have hnil : rest = [] := by
              have hsame := congrArg List.length hrest
              simp [Literal.braced] at hsame hlength
              exact List.length_eq_zero_iff.mp (by omega)
            rw [hbackslash, hrest, hnil, List.append_nil, he]
            split
            · next hsmall => exact .outOfRange hdigits hbeyond hsmall
            · next hlarge => exact .tooLarge hdigits (Nat.not_lt.mp hlarge)
          · split at h <;> cases h
        · split at h <;> cases h
      · cases h
    · cases h
  · have hfails : ∀ {digits : Text}, digits.all CodePoint.isHexDigit = true →
        0x110000 ≤ hexNumber digits → decode (Literal.braced digits) =
          .error (if hexNumber digits < 2 ^ 31 then .codePointOutOfRange
            else .codePointTooLarge) := by
      intro digits hdigits hbeyond
      have hne : digits ≠ [] := by
        rintro rfl
        exact absurd hbeyond (by decide)
      rw [decode_braced hdigits hne, pointOf_error_iff.mpr ⟨hbeyond, rfl⟩]
      rfl
    intro h
    cases h with
    | outOfRange hdigits hlow hhigh => rw [hfails hdigits hlow, if_pos hhigh]
    | tooLarge hdigits hlow =>
      rw [hfails hdigits (Nat.le_trans (by decide) hlow), if_neg (Nat.not_lt.mpr hlow)]

end Escape

/-! ### Numbers that name members -/

namespace Numeral

theorem isCanonical_of_read? {spelling : Text} {x : Binary64}
    (h : read? spelling = some (.float x)) : x.IsCanonical := by
  unfold read? at h
  dsimp only at h
  split at h
  · obtain ⟨n, -, hn⟩ := Option.map_eq_some_iff.mp h
    cases hn
  · split at h
    · split at h <;> cases h
    · obtain ⟨y, hy, heq⟩ := Option.map_eq_some_iff.mp h
      cases heq
      exact Binary64.isCanonical_read? hy

private theorem intText?_eq_none_iff {n : ℤ} :
    Number.intText? n = none ↔ 10 ^ Number.digitLimit ≤ n.natAbs := by
  unfold Number.intText? Number.fitsLimit
  simp only [Nat.pow_eq, decide_eq_true_eq, ite_eq_right_iff, reduceCtorEq, imp_false, Nat.not_lt]

/-- Whole numbers of binary64 have fewer digits than are written. -/
private theorem intText?_of_toInt? {x : Binary64} (hx : x.IsCanonical) {n : ℤ}
    (h : x.toInt? = some n) : Number.intText? n ≠ none := by
  have hlt := Binary64.natAbs_toInt?_lt (b := Number.digitLimit) (by decide) hx h
  have hle : 2 ^ Number.digitLimit ≤ 10 ^ Number.digitLimit := Nat.pow_le_pow_left (by decide) _
  intro hnone
  have := intText?_eq_none_iff.mp hnone
  omega

/-- A number that is spelt out has no text as a key exactly if it is an integer of too many
digits. -/
theorem key_error_iff {spelling : Text} {n : Number} (h : read? spelling = some n)
    {e : LiteralError} :
    key n = .error e ↔
      e = .tooManyDigits ∧ ∃ i, n = .int i ∧ 10 ^ Number.digitLimit ≤ i.natAbs := by
  cases n with
  | int i =>
    unfold key Number.text?
    dsimp only
    cases htext : Number.intText? i with
    | none => simp [intText?_eq_none_iff.mp htext, eq_comm]
    | some t =>
      have hlt := mt intText?_eq_none_iff.mpr (by rw [htext]; simp)
      simp [hlt]
  | float x =>
    have hx := isCanonical_of_read? h
    unfold key Number.text?
    dsimp only
    cases hwhole : x.toInt? with
    | none => simp
    | some i =>
      obtain ⟨t, ht⟩ := Option.ne_none_iff_exists'.mp (intText?_of_toInt? hx hwhole)
      simp [ht]

end Numeral

namespace Literal

/-- The spelling of a number fails to be a key exactly if it is an integer of too many digits. -/
theorem keyOf_number_error_iff {spelling : Text} {e : LiteralError} :
    Expression.keyOf (.number spelling) = .error e ↔ Fails (.key spelling) e := by
  unfold Expression.keyOf
  dsimp only
  split
  · next n hread =>
    rw [map_error_iff, Numeral.key_error_iff hread]
    constructor
    · rintro ⟨rfl, i, rfl, hlarge⟩
      exact .tooManyDigits hread hlarge
    · rintro ⟨⟩
      next i hlarge hn =>
        rw [hread] at hn
        exact ⟨rfl, i, Option.some.inj hn, hlarge⟩
  · next hread =>
    constructor
    · intro h
      cases h
    · rintro ⟨⟩
      next i hlarge hn =>
        rw [hread] at hn
        cases hn

/-- The reason that is found for a literal is the one why it has no value. -/
theorem fault?_eq_some_iff {l : Literal} {e : LiteralError} : l.fault? = some e ↔ l.Fails e := by
  cases l with
  | escape token =>
    rw [← Escape.decode_error_iff, fault?]
    split <;> simp_all
  | key spelling =>
    rw [← keyOf_number_error_iff, fault?]
    split <;> simp_all

end Literal

end StoryCatalog
