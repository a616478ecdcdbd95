import StoryCatalog.Literal.Numeral
import StoryCatalog.Proofs.Json.Number
import StoryCatalog.Proofs.Text.Case

/-!
# Numerals of documents

What a document holds for a number without its sign denotes the number when it is taken for a
numeric literal: whole digits an integer, every other spelling the binary64 number that its decimal
is rounded to.
-/

namespace StoryCatalog

open Decimal Text

variable {whole part power body t : Text} {p : ℤ}

/-- The code points of the spellings of numbers: digits, a point, a mark for powers and its sign. -/
def CodePoint.IsNumeral (c : CodePoint) : Prop :=
  c.isDigit = true ∨ c ∈ [ofChar '.', ofChar 'e', ofChar '+', ofChar '-']

theorem CodePoint.IsNumeral.val_cases {c : CodePoint} (h : c.IsNumeral) :
    0x2B ≤ c.val ∧ c.val ≤ 0x39 ∨ c.val = 0x65 := by
  rcases h with hdigit | hmark
  · simp only [CodePoint.isDigit, Bool.and_eq_true, decide_eq_true_eq] at hdigit
    omega
  · have hmarks : ∀ c ∈ [ofChar '.', ofChar 'e', ofChar '+', ofChar '-'],
        0x2B ≤ c.val ∧ c.val ≤ 0x39 ∨ c.val = 0x65 := by decide
    exact hmarks c hmark

private theorem isNumeral_of_isDigit (h : ∀ c ∈ t, c.isDigit = true) : ∀ c ∈ t, c.IsNumeral :=
  fun c hc ↦ .inl (h c hc)

private theorem isNumeral_fraction (h : ∀ c ∈ part, c.isDigit = true) :
    ∀ c ∈ fraction part, c.IsNumeral := by
  rw [fraction]
  split
  · simp
  · exact List.forall_mem_cons.mpr ⟨.inr (by simp), isNumeral_of_isDigit h⟩

private theorem isNumeral_power (h : IsPower power p) : ∀ c ∈ power, c.IsNumeral := by
  cases h with
  | none => simp
  | positive _ hdigits =>
    rw [List.forall_mem_cons, List.forall_mem_cons]
    exact ⟨.inr (by simp), .inr (by simp), isNumeral_of_isDigit hdigits⟩
  | negative _ hdigits =>
    rw [List.forall_mem_cons, List.forall_mem_cons]
    exact ⟨.inr (by simp), .inr (by simp), isNumeral_of_isDigit hdigits⟩

private theorem isNumeral_of_isSpelling {d : Decimal} (h : IsSpelling body d) :
    ∀ c ∈ body, c.IsNumeral := by
  obtain ⟨⟨c, more, hcons, hdigits, -⟩, hpart, hpower, -⟩ := h
  rw [List.forall_mem_append, List.forall_mem_append]
  exact ⟨⟨isNumeral_of_isDigit hdigits, isNumeral_fraction hpart⟩, isNumeral_power hpower⟩

/-! ### What is left as it is -/

private theorem lower_of_isNumeral (h : ∀ c ∈ t, c.IsNumeral) : lower t = t :=
  lower_of_isSettled fun c hc ↦ by
    have hval := (h c hc).val_cases
    exact isSettled_of_ascii (by omega) (by omega)

theorem dropWhile_of_forall {q : CodePoint → Bool} (h : ∀ c ∈ t, q c = false) :
    t.dropWhile q = t := by
  cases t with
  | nil => rfl
  | cons c t =>
    have hc : ¬ q c = true := by
      rw [h c List.mem_cons_self]
      exact Bool.false_ne_true
    rw [List.dropWhile_cons_of_neg hc]

theorem dropEndWhile_of_forall {q : CodePoint → Bool} (h : ∀ c ∈ t, q c = false) :
    t.dropEndWhile q = t := by
  rw [dropEndWhile, dropWhile_of_forall fun c hc ↦ h c (List.mem_reverse.mp hc),
    List.reverse_reverse]

private theorem base?_of_isNumeral (h : ∀ c ∈ t, c.IsNumeral) : Numeral.base? t = none := by
  unfold Numeral.base?
  split
  · next zero mark rest =>
    have hval := (h mark (by simp)).val_cases
    split
    · rfl
    · rw [if_neg (by omega), if_neg (by omega), if_neg (by omega)]
  · rfl

/-- Of a spelling of a number nothing is cleaned away, and no mark of a base is found in it. -/
private theorem read?_of_isNumeral (h : ∀ c ∈ t, c.IsNumeral) (hne : t ≠ []) :
    Numeral.read? t =
      if t.all CodePoint.isDigit then
        if t.length ≤ Number.digitLimit then some (.int (digitNumber t)) else none
      else (Binary64.read? t).map .float := by
  have hfilter : t.filter (fun c ↦ c.val != 0x5F) = t := by
    rw [List.filter_eq_self]
    intro c hc
    have hval := (h c hc).val_cases
    rw [bne_iff_ne]
    omega
  have hsuffix : ∀ c ∈ t, (c.val == 0x6E) = false := by
    intro c hc
    have hval := (h c hc).val_cases
    rw [beq_eq_false_iff_ne]
    omega
  unfold Numeral.read?
  dsimp only
  rw [hfilter, dropEndWhile_of_forall hsuffix, lower_of_isNumeral h,
    base?_of_isNumeral h]
  dsimp only
  rw [List.isEmpty_eq_false_iff.mpr hne, Bool.not_false, Bool.true_and]
  rfl

/-! ### Decimals -/

private theorem takeDigits_append {rest : Text} (h : ∀ c ∈ t, c.isDigit = true)
    (hrest : ∀ c ∈ rest.head?, c.isDigit = false) :
    takeDigits (t ++ rest) = (t.filterMap CodePoint.digitValue?, rest) := by
  have hdrop : rest.dropWhile CodePoint.isDigit = rest := by
    cases rest with
    | nil => rfl
    | cons c rest => simp [hrest c rfl]
  rw [takeDigits, takeWhile_append h hrest, List.dropWhile_append_of_pos h, hdrop]

private theorem head_power (h : IsPower power p) :
    ∀ c ∈ power.head?, c.isDigit = false ∧ c ≠ CodePoint.ofChar '.' := by
  cases h with
  | none => simp
  | positive => exact fun c hc ↦ by obtain rfl := Option.mem_some.mp hc; decide
  | negative => exact fun c hc ↦ by obtain rfl := Option.mem_some.mp hc; decide

private theorem head_fraction_power (h : IsPower power p) :
    ∀ c ∈ (fraction part ++ power).head?, c.isDigit = false := by
  cases part with
  | nil => exact fun c hc ↦ (head_power h c hc).1
  | cons d part => exact fun c hc ↦ by obtain rfl := Option.mem_some.mp hc; decide

/-- A spelling is read as its decimal. -/
theorem Decimal.read?_of_isSpelling {d : Decimal} (h : IsSpelling body d) :
    Decimal.read? body = some d := by
  obtain @⟨whole, part, power, p, hwhole, hpart, hpower, -⟩ := h
  obtain ⟨c, more, rfl, hdigits, -⟩ := hwhole
  have hne : (c :: more).filterMap CodePoint.digitValue? ≠ [] := by
    simp [CodePoint.digitValue?, hdigits c List.mem_cons_self]
  unfold Decimal.read?
  rw [List.append_assoc, takeDigits_append hdigits (head_fraction_power hpower)]
  cases part with
  | nil =>
    cases power with
    | nil => simp [fraction, hne, Json.readPower?_of_isPower hpower, digitNumber]
    | cons d power =>
      have hd := (head_power hpower d rfl).2
      simp [fraction, hne, hd, Json.readPower?_of_isPower hpower, digitNumber]
  | cons d part =>
    have hrest := takeDigits_append hpart fun c hc ↦ (head_power hpower c hc).1
    rw [List.cons_append] at hrest
    simp [fraction, hne, hrest, Json.readPower?_of_isPower hpower, digitNumber,
      length_filterMap_digitValue? hpart, ← List.filterMap_append]

/-! ### Numbers -/

/-- ASCII code points are read as they are. -/
theorem plainDigits?_of_ascii (h : ∀ c ∈ t, c.val < 0x80) : Binary64.plainDigits? t = some t := by
  induction t with
  | nil => rfl
  | cons c t ih =>
    obtain ⟨hc, ht⟩ := List.forall_mem_cons.mp h
    have hrest := ih ht
    rw [Binary64.plainDigits?] at hrest ⊢
    rw [List.mapM_cons, if_pos hc, hrest]
    rfl

/-- There is nothing to strip of a text without blank space. -/
theorem strip_of_forall (h : ∀ c ∈ t, c.isBlank = false) : t.strip = t := by
  rw [strip, dropWhile_of_forall h, dropEndWhile_of_forall h]

private theorem plainDigits?_of_isNumeral (h : ∀ c ∈ t, c.IsNumeral) :
    Binary64.plainDigits? t = some t :=
  plainDigits?_of_ascii fun c hc ↦ by
    have hval := (h c hc).val_cases
    omega

private theorem strip_of_isNumeral (h : ∀ c ∈ t, c.IsNumeral) : t.strip = t := by
  refine strip_of_forall fun c hc ↦ ?_
  have hval := (h c hc).val_cases
  simp only [CodePoint.isBlank, Bool.or_eq_false_iff, Bool.and_eq_false_iff,
    decide_eq_false_iff_not, beq_eq_false_iff_ne]
  omega

private theorem isWord_digit {c : CodePoint} (hc : c.isDigit = true) {word : String} {d : Char}
    (hhead : word.toList.head? = some d) (hd : 0x3A ≤ d.toNat) :
    Binary64.isWord (c :: t) word = false := by
  obtain ⟨more, hmore⟩ := List.head?_eq_some_iff.mp hhead
  simp only [CodePoint.isDigit, Bool.and_eq_true, decide_eq_true_eq] at hc
  rw [Binary64.isWord, hmore, List.map_cons, List.map_cons, beq_eq_false_iff_ne]
  intro heq
  have hpoint := (List.cons.inj heq).1
  rw [if_neg (by simp; omega)] at hpoint
  omega

/-- A spelling is read as the number that its decimal is rounded to. -/
theorem Binary64.read?_of_isSpelling {d : Decimal} (h : IsSpelling body d) :
    Binary64.read? body = some (ofDecimal false d.digits d.exponent) := by
  have hnumeral := isNumeral_of_isSpelling h
  have hdecimal := Decimal.read?_of_isSpelling h
  obtain ⟨c, more, rfl, hc⟩ : ∃ c more, body = c :: more ∧ c.isDigit = true := by
    obtain ⟨⟨c, more, rfl, hdigits, -⟩, -, -, -⟩ := h
    exact ⟨c, _, rfl, hdigits c List.mem_cons_self⟩
  have hsign : takeSign (c :: more) = (false, c :: more) := by
    have hmark : ∀ d : Char, (CodePoint.ofChar d).isDigit = false → c ≠ CodePoint.ofChar d := by
      rintro d hd rfl
      rw [hc] at hd
      cases hd
    rw [takeSign, if_neg (hmark '-' rfl), if_neg (hmark '+' rfl)]
  unfold Binary64.read?
  rw [strip_of_isNumeral hnumeral, plainDigits?_of_isNumeral hnumeral]
  dsimp only
  rw [hsign]
  dsimp only
  rw [isWord_digit hc rfl (by decide), isWord_digit hc rfl (by decide),
    isWord_digit hc rfl (by decide), hdecimal]
  rfl

private theorem all_isDigit_of_isSpelling {d : Decimal} (h : IsSpelling body d) :
    body.all CodePoint.isDigit = false := by
  obtain @⟨whole, part, power, p, -, -, hpower, hne⟩ := h
  rw [List.all_append, List.all_append]
  rcases hne with hpart | hpower'
  · rw [fraction, if_neg (by simpa using hpart)]
    simp [CodePoint.isDigit]
  · cases hpower with
    | none => exact absurd rfl hpower'
    | positive => simp [CodePoint.isDigit]
    | negative => simp [CodePoint.isDigit]

namespace Numeral

/-- Digits without needless zeros denote an integer, if they are within the limit. -/
theorem read?_of_isWhole (h : IsWhole whole) (hlength : whole.length ≤ Number.digitLimit) :
    read? whole = some (.int (digitNumber whole)) := by
  obtain ⟨c, more, rfl, hdigits, -⟩ := h
  rw [read?_of_isNumeral (isNumeral_of_isDigit hdigits) (List.cons_ne_nil c more),
    if_pos (List.all_eq_true.mpr hdigits), if_pos hlength]

/-- A spelling denotes the number that its decimal is rounded to. -/
theorem read?_of_isSpelling {d : Decimal} (h : IsSpelling body d) :
    read? body = some (.float (.ofDecimal false d.digits d.exponent)) := by
  have hread := Binary64.read?_of_isSpelling h
  have hnumeral := isNumeral_of_isSpelling h
  have hmark : body.all CodePoint.isDigit = false := all_isDigit_of_isSpelling h
  have hne : body ≠ [] := by
    rintro rfl
    cases hread
  rw [read?_of_isNumeral hnumeral hne, hmark, if_neg Bool.false_ne_true, hread]
  rfl

end Numeral

/-! ### What is printed for a number -/

/-- What is printed for a number behind its sign. -/
structure IsUnsigned (body : Text) : Prop where
  parts : ∃ whole part power p, body = whole ++ fraction part ++ power ∧ IsWhole whole ∧
    (∀ c ∈ part, c.isDigit = true) ∧ IsPower power p

theorem IsUnsigned.of_isWhole (h : IsWhole whole) : IsUnsigned whole :=
  ⟨whole, [], [], 0, by simp [fraction], h, List.forall_mem_nil _, .none⟩

theorem IsUnsigned.of_isSpelling {d : Decimal} (h : IsSpelling body d) : IsUnsigned body := by
  obtain ⟨hwhole, hpart, hpower, -⟩ := h
  exact ⟨_, _, _, _, rfl, hwhole, hpart, hpower⟩

/-- A number without its sign begins with a digit. -/
theorem IsUnsigned.exists_eq_cons (h : IsUnsigned body) :
    ∃ n < 10, ∃ more, body = CodePoint.ofDigit n :: more := by
  obtain ⟨whole, part, power, p, rfl, ⟨c, more, rfl, hdigits, -⟩, -⟩ := h.parts
  obtain ⟨n, hn, rfl⟩ := CodePoint.exists_eq_ofDigit (hdigits c List.mem_cons_self)
  exact ⟨n, hn, _, rfl⟩

/-- What is printed for a number within the limit. -/
def numeralOf : Number → Text
  | .int n => ofInt n
  | .float x => x.textWith "Infinity" "NaN"

theorem numeralOf_of_printNumber {n : Number} (h : Json.printNumber n = .ok t) :
    t = numeralOf n := by
  cases n with
  | int n =>
    rw [Json.printNumber] at h
    split at h <;> cases h
    rfl
  | float x =>
    cases h
    rfl

/-- What is printed for an integer within the limit denotes it, a minus taken for a sign. -/
theorem exists_numeral_int {n : ℤ} (h : Number.fitsLimit n = true) :
    ∃ negative body k, ofInt n = Json.signed negative body ∧ IsUnsigned body ∧
      Numeral.read? body = some k ∧ (if negative then k.neg else k) = .int n := by
  have hwhole := isWhole_ofNat n.natAbs
  refine ⟨decide (n < 0), ofNat n.natAbs, .int n.natAbs, ?_, .of_isWhole hwhole, ?_, ?_⟩
  · by_cases hn : n < 0 <;> simp [ofInt, Json.signed, hn]
  · rw [Numeral.read?_of_isWhole hwhole (Number.fitsLimit_iff.mp h), digitNumber_ofNat]
  · by_cases hn : n < 0
    · rw [decide_eq_true hn, if_pos rfl, Number.neg, Number.int.injEq]
      omega
    · rw [decide_eq_false hn, if_neg Bool.false_ne_true, Number.int.injEq]
      omega

/-- What is printed for a finite binary64 number denotes it, a minus taken for a sign. -/
theorem exists_numeral_finite {negative : Bool} {m : ℕ} {e : ℤ}
    (h : (Binary64.finite negative m e).IsCanonical) :
    ∃ body k, numeralOf (.float (.finite negative m e)) = Json.signed negative body ∧
      IsUnsigned body ∧ Numeral.read? body = some k ∧
      (if negative then k.neg else k) = .float (.finite negative m e) := by
  have hunsigned : (Binary64.finite false m e).IsCanonical := h
  obtain ⟨body, d, htext, hspelling, hvalue⟩ :=
    Binary64.exists_isSpelling "Infinity" "NaN" hunsigned
  refine ⟨body, .float (.finite false m e), ?_, .of_isSpelling hspelling, ?_, ?_⟩
  · rw [← show _ = body from htext]
    cases negative <;> rfl
  · rw [Numeral.read?_of_isSpelling hspelling, hvalue]
  · cases negative <;> rfl

end StoryCatalog
