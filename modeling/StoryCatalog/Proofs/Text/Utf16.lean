import StoryCatalog.Proofs.Text.Utf8

/-!
# Texts as UTF-16

A sequence of code units denotes a text: a high surrogate right before a low one stands for one
supplementary character, and every other unit for the code point of its number. A text is the one
that its own units denote exactly if no high surrogate stands right before a low one in it
(`ofUnits_utf16_iff`).
-/

namespace StoryCatalog

/-- A code unit of UTF-16. -/
structure CodeUnit where
  val : Nat
  isLt : val < 0x10000
  deriving DecidableEq, Repr

namespace CodeUnit

/-- Whether a unit is the first one of a pair. -/
def isHigh (u : CodeUnit) : Bool := 0xD800 ≤ u.val && u.val < 0xDC00

/-- Whether a unit is the second one of a pair. -/
def isLow (u : CodeUnit) : Bool := 0xDC00 ≤ u.val && u.val < 0xE000

/-- The code point of a unit that stands by itself. -/
def point (u : CodeUnit) : CodePoint :=
  ⟨u.val, Nat.lt_trans u.isLt (by decide)⟩

/-- The supplementary code point of a pair. -/
def pair (high low : CodeUnit) : CodePoint :=
  ⟨0x10000 + high.val % 0x400 * 0x400 + low.val % 0x400, by omega⟩

end CodeUnit

namespace CodePoint

/-- Whether a code point is a high surrogate. -/
def isHigh (c : CodePoint) : Bool := 0xD800 ≤ c.val && c.val < 0xDC00

/-- Whether a code point is a low surrogate. -/
def isLow (c : CodePoint) : Bool := 0xDC00 ≤ c.val && c.val < 0xE000

/-- The code units of a code point. -/
def units (c : CodePoint) : List CodeUnit :=
  if h : c.val < 0x10000 then [⟨c.val, h⟩]
  else
    [⟨0xD800 + (c.val - 0x10000) / 0x400, by have := c.isLt; omega⟩,
      ⟨0xDC00 + (c.val - 0x10000) % 0x400, by omega⟩]

/-- A code point has one unit, itself, or two units that are a pair for it. -/
theorem units_cases (c : CodePoint) :
    (∃ u : CodeUnit, c.units = [u] ∧ u.point = c) ∨
      ∃ high low : CodeUnit, c.units = [high, low] ∧ high.isHigh = true ∧ low.isLow = true ∧
        CodeUnit.pair high low = c := by
  have hlt := c.isLt
  unfold units
  split
  · next h => exact .inl ⟨⟨c.val, h⟩, rfl, rfl⟩
  · next h =>
    refine .inr ⟨_, _, rfl, ?_, ?_, CodePoint.ext ?_⟩
    · simp only [CodeUnit.isHigh, Bool.and_eq_true, decide_eq_true_eq]
      omega
    · simp only [CodeUnit.isLow, Bool.and_eq_true, decide_eq_true_eq]
      omega
    · simp only [CodeUnit.pair]
      omega

/-- The surrogates are the high ones and the low ones. -/
theorem isSurrogate_eq (c : CodePoint) : c.isSurrogate = (c.isHigh || c.isLow) := by
  rw [Bool.eq_iff_iff]
  simp only [isSurrogate, isHigh, isLow, Bool.or_eq_true, Bool.and_eq_true, decide_eq_true_eq]
  omega

theorem isSurrogate_eq_false_iff {c : CodePoint} :
    c.isSurrogate = false ↔ c.isHigh = false ∧ c.isLow = false := by
  rw [isSurrogate_eq, Bool.or_eq_false_iff]

end CodePoint

/-- A supplementary code point is no surrogate. -/
theorem CodeUnit.not_surrogate_pair (high low : CodeUnit) :
    (pair high low).isHigh = false ∧ (pair high low).isLow = false := by
  have hlarge : 0x10000 ≤ (pair high low).val := by
    simp only [pair]
    omega
  rw [← CodePoint.isSurrogate_eq_false_iff]
  simp only [CodePoint.isSurrogate, Bool.and_eq_false_iff, decide_eq_false_iff_not]
  omega

theorem CodeUnit.isLow_of_isHigh {u : CodeUnit} (h : u.isHigh = true) : u.isLow = false := by
  simp only [isHigh, Bool.and_eq_true, decide_eq_true_eq] at h
  simp only [isLow, Bool.and_eq_false_iff, decide_eq_false_iff_not]
  omega

namespace Text

variable {t : Text} {us : List CodeUnit}

/-- The code units of a text. -/
def utf16 (t : Text) : List CodeUnit := t.flatMap CodePoint.units

/-- The text that code units denote. -/
def ofUnits : List CodeUnit → Text
  | [] => []
  | [u] => [u.point]
  | high :: low :: rest =>
    if high.isHigh && low.isLow then CodeUnit.pair high low :: ofUnits rest
    else high.point :: ofUnits (low :: rest)

/-- In a text a high surrogate stands right before a low one. -/
def HoldsPair (t : Text) : Prop :=
  ∃ front high low rest, t = front ++ high :: low :: rest ∧ high.isHigh = true ∧ low.isLow = true

/-- Code units are the UTF-16 of a text without surrogates. -/
def IsWellFormed (us : List CodeUnit) : Prop := ∃ t : Text, t.IsScalar ∧ us = utf16 t

theorem not_holdsPair_nil : ¬ HoldsPair [] := by
  rintro ⟨front, high, low, rest, h, -⟩
  cases front <;> cases h

theorem holdsPair_cons {c : CodePoint} :
    HoldsPair (c :: t) ↔ (c.isHigh = true ∧ ∃ d ∈ t.head?, d.isLow = true) ∨ HoldsPair t := by
  constructor
  · rintro ⟨front, high, low, rest, h, hhigh, hlow⟩
    cases front with
    | nil =>
      cases h
      exact .inl ⟨hhigh, low, rfl, hlow⟩
    | cons first front =>
      cases h
      exact .inr ⟨front, high, low, rest, rfl, hhigh, hlow⟩
  · rintro (⟨hc, d, hd, hlow⟩ | ⟨front, high, low, rest, rfl, hhigh, hlow⟩)
    · obtain ⟨rest, rfl⟩ := List.head?_eq_some_iff.mp hd
      exact ⟨[], c, d, rest, rfl, hc, hlow⟩
    · exact ⟨c :: front, high, low, rest, rfl, hhigh, hlow⟩

/-- A text holds a pair where the things that it is made of are next to each other. -/
theorem holdsPair_map {α : Type} {f : α → CodePoint} {xs : List α} :
    HoldsPair (xs.map f) ↔ ∃ front high low rest, xs = front ++ high :: low :: rest ∧
      (f high).isHigh = true ∧ (f low).isLow = true := by
  constructor
  · rintro ⟨front, high, low, rest, h, hhigh, hlow⟩
    obtain ⟨before, behind, rfl, -, hbehind⟩ := List.map_eq_append_iff.mp h
    obtain ⟨a, more, rfl, rfl, hmore⟩ := List.map_eq_cons_iff.mp hbehind
    obtain ⟨b, last, rfl, rfl, -⟩ := List.map_eq_cons_iff.mp hmore
    exact ⟨before, a, b, last, rfl, hhigh, hlow⟩
  · rintro ⟨front, high, low, rest, rfl, hhigh, hlow⟩
    exact ⟨front.map f, f high, f low, rest.map f, by simp, hhigh, hlow⟩

/-- A text with a pair holds a surrogate. -/
theorem HoldsPair.not_isScalar (h : HoldsPair t) : ¬ t.IsScalar := by
  obtain ⟨front, high, low, rest, rfl, hhigh, -⟩ := h
  intro hscalar
  obtain ⟨hnot, -⟩ := CodePoint.isSurrogate_eq_false_iff.mp (hscalar high (by simp))
  rw [hhigh] at hnot
  cases hnot

/-! ### From a text to its units and back -/

/-- A unit that begins no pair is denoted by itself. -/
theorem ofUnits_cons {u : CodeUnit} (h : ¬ (u.isHigh = true ∧ ∃ v ∈ us.head?, v.isLow = true)) :
    ofUnits (u :: us) = u.point :: ofUnits us := by
  cases us with
  | nil => rfl
  | cons v us =>
    rw [ofUnits, if_neg]
    intro hpair
    rw [Bool.and_eq_true] at hpair
    exact h ⟨hpair.1, v, rfl, hpair.2⟩

theorem ofUnits_pair {high low : CodeUnit} (hhigh : high.isHigh = true) (hlow : low.isLow = true) :
    ofUnits (high :: low :: us) = CodeUnit.pair high low :: ofUnits us := by
  rw [ofUnits, hhigh, hlow]
  rfl

theorem utf16_cons (c : CodePoint) (t : Text) : utf16 (c :: t) = c.units ++ utf16 t :=
  List.flatMap_cons

/-- The units of a text begin with a low surrogate only if the text does. -/
theorem exists_isLow_head_utf16 (h : ∃ v ∈ (utf16 t).head?, v.isLow = true) :
    ∃ d ∈ t.head?, d.isLow = true := by
  obtain ⟨v, hv, hlow⟩ := h
  cases t with
  | nil => cases hv
  | cons d t =>
    rw [utf16_cons] at hv
    rcases d.units_cases with ⟨u, hunits, rfl⟩ | ⟨high, low, hunits, hhigh, -, -⟩
    · rw [hunits] at hv
      cases hv
      exact ⟨_, rfl, hlow⟩
    · rw [hunits] at hv
      cases hv
      rw [CodeUnit.isLow_of_isHigh hhigh] at hlow
      cases hlow

/-- A text without a pair is denoted by its units. -/
theorem ofUnits_utf16 (h : ¬ HoldsPair t) : ofUnits (utf16 t) = t := by
  induction t with
  | nil => rfl
  | cons c t ih =>
    rw [holdsPair_cons, not_or] at h
    rw [utf16_cons]
    rcases c.units_cases with ⟨u, hunits, rfl⟩ | ⟨high, low, hunits, hhigh, hlow, rfl⟩
    · rw [hunits, List.singleton_append, ofUnits_cons, ih h.2]
      rintro ⟨hhigh, hhead⟩
      exact h.1 ⟨hhigh, exists_isLow_head_utf16 hhead⟩
    · rw [hunits, List.cons_append, List.singleton_append, ofUnits_pair hhigh hlow, ih h.2]

/-- What code units denote begins with a low surrogate only if the units do. -/
theorem exists_isLow_head_ofUnits (h : ∃ d ∈ (ofUnits us).head?, d.isLow = true) :
    ∃ v ∈ us.head?, v.isLow = true := by
  obtain ⟨d, hd, hlow⟩ := h
  fun_cases ofUnits us with
  | case1 => cases hd
  | case2 u =>
    cases hd
    exact ⟨u, rfl, hlow⟩
  | case3 high low rest hpair =>
    rw [ofUnits, if_pos hpair] at hd
    cases hd
    rw [(CodeUnit.not_surrogate_pair high low).2] at hlow
    cases hlow
  | case4 high low rest hpair =>
    rw [ofUnits, if_neg hpair] at hd
    cases hd
    exact ⟨high, rfl, hlow⟩

/-- What code units denote holds no pair. -/
theorem not_holdsPair_ofUnits (us : List CodeUnit) : ¬ HoldsPair (ofUnits us) := by
  fun_induction ofUnits us with
  | case1 => exact not_holdsPair_nil
  | case2 u =>
    rw [holdsPair_cons]
    rintro (⟨-, d, hd, -⟩ | h)
    · cases hd
    · exact not_holdsPair_nil h
  | case3 high low rest hpair ih =>
    rw [holdsPair_cons, (CodeUnit.not_surrogate_pair high low).1]
    rintro (⟨h, -⟩ | h)
    · cases h
    · exact ih h
  | case4 high low rest hpair ih =>
    rw [holdsPair_cons]
    rintro (⟨hhigh, hhead⟩ | h)
    · obtain ⟨v, hv, hlow⟩ := exists_isLow_head_ofUnits hhead
      cases hv
      apply hpair
      rw [Bool.and_eq_true]
      exact ⟨hhigh, hlow⟩
    · exact ih h

/-- A text is denoted by its units exactly if it holds no pair. -/
theorem ofUnits_utf16_iff : ofUnits (utf16 t) = t ↔ ¬ HoldsPair t := by
  constructor
  · intro h
    rw [← h]
    exact not_holdsPair_ofUnits (utf16 t)
  · exact ofUnits_utf16

/-- Where the units of a text are well-formed, it holds a surrogate exactly if it holds a pair. -/
theorem isScalar_iff_of_isWellFormed (h : IsWellFormed (utf16 t)) :
    t.IsScalar ↔ ¬ HoldsPair t := by
  constructor
  · intro hscalar hpair
    exact hpair.not_isScalar hscalar
  · intro hpair
    obtain ⟨s, hs, hunits⟩ := h
    have hs' : ofUnits (utf16 s) = s := ofUnits_utf16 fun hs' ↦ hs'.not_isScalar hs
    rw [← hunits, ofUnits_utf16 hpair] at hs'
    rw [hs']
    exact hs

end Text

end StoryCatalog
