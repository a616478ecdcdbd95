import StoryCatalog.Proofs.Literal.Embedding
import StoryCatalog.Proofs.Script.Strings
import StoryCatalog.Proofs.Text.Utf16

/-!
# The value of a string literal

In the language of story files the value of a string literal is a sequence of code units: an escape
of four digits is one unit, and two escapes of surrogates are one character. A literal is read as a
text of code points, escape by escape. `readText_eq_value_iff` says when the text is the one that
the value denotes: exactly if no escape of a high surrogate stands right before one of a low
surrogate, for literals in which no separator is left to an escape sequence.
-/

namespace StoryCatalog

open Script Reading

/-- The code unit with a number, if there is one. -/
def CodeUnit.ofNat? (n : Nat) : Option CodeUnit := if h : n < 0x10000 then some ⟨n, h⟩ else none

namespace Script.StringPart

/-- The code units that a part adds to the value of a literal. -/
def units : StringPart → List CodeUnit
  | plain c => (CodePoint.ofChar c).units
  | single c => (CodePoint.ofChar (escaped c)).units
  | zero => (CodeUnit.ofNat? 0).toList
  | byte digits => (CodeUnit.ofNat? (numberOf digits)).toList
  | unit digits => (CodeUnit.ofNat? (numberOf digits)).toList
  | point digits => (CodePoint.ofNat? (numberOf digits)).toList.flatMap CodePoint.units
  | continuation _ => []

/-- The code point that a part is read as, if it is read as one. -/
def character (part : StringPart) : CodePoint := part.read.headD (CodePoint.ofChar '\x00')

/-- Whether a part continues the line. -/
def isContinuation : StringPart → Bool
  | continuation _ => true
  | _ => false

/-- The number that a part names behind `\u`. -/
def named? : StringPart → Option Nat
  | unit digits => some (numberOf digits)
  | point digits => some (numberOf digits)
  | _ => none

/-- Whether a part is the escape of a high surrogate. -/
def isHigh (part : StringPart) : Bool := part.named?.any fun n ↦ 0xD800 ≤ n && n < 0xDC00

/-- Whether a part is the escape of a low surrogate. -/
def isLow (part : StringPart) : Bool := part.named?.any fun n ↦ 0xDC00 ≤ n && n < 0xE000

end Script.StringPart

open StringPart

variable {quote : Char} {part : StringPart} {parts : List StringPart}

/-- The code units of the value of a literal. -/
def valueUnits (parts : List StringPart) : List CodeUnit := parts.flatMap units

/-- A line or paragraph separator stands behind a backslash, or an escape sequence takes it in. -/
def LeavesSeparator (parts : List StringPart) : Prop :=
  (∃ c, isSeparator c = true ∧ .continuation [c] ∈ parts) ∨
    ∃ front part c rest, parts = front ++ part :: .plain c :: rest ∧ part.takes c = true

/-- But for continued lines, an escape of a high surrogate stands right before one of a low
surrogate. -/
def SpellsPair (parts : List StringPart) : Prop :=
  ∃ front high low rest, parts.filter (!·.isContinuation) = front ++ high :: low :: rest ∧
    high.isHigh = true ∧ low.isLow = true

/-- A literal without separators leaves none to an escape sequence. -/
theorem not_leavesSeparator_of_spell (h : (spell parts).any isSeparator = false) :
    ¬ LeavesSeparator parts := by
  have hnot : ∀ c ∈ spell parts, isSeparator c = false := by simpa using h
  rintro (⟨c, hc, hpart⟩ | ⟨front, part, c, rest, rfl, htakes⟩)
  · have hmem : c ∈ spell parts := List.mem_flatMap.mpr ⟨_, hpart, by simp [spelling]⟩
    rw [hnot c hmem] at hc
    cases hc
  · have hmem : c ∈ spell (front ++ part :: .plain c :: rest) :=
      List.mem_flatMap.mpr ⟨.plain c, by simp, by simp [spelling]⟩
    rw [takes_eq_false (hnot c hmem)] at htakes
    cases htakes

theorem not_spellsPair_of_forall (h : ∀ part ∈ parts, part.isHigh = false) :
    ¬ SpellsPair parts := by
  rintro ⟨front, high, low, rest, hparts, hhigh, -⟩
  have hmem : high ∈ parts.filter (!·.isContinuation) := by simp [hparts]
  rw [h high (List.mem_filter.mp hmem).1] at hhigh
  cases hhigh

/-! ### Part by part -/

/-- A number of one unit is the unit of its code point. -/
private theorem units_of_lt {n : Nat} {c : CodePoint} (hc : c.val = n) (hn : n < 0x10000) :
    (CodeUnit.ofNat? n).toList = c.units := by
  subst hc
  rw [CodeUnit.ofNat?, dif_pos hn, CodePoint.units, dif_pos hn]
  rfl

/-- A part is read as one code point, which is a surrogate if it is the escape of one; or it
continues the line. -/
theorem exists_read_eq_singleton (hspelled : part.IsSpelled quote)
    (hpart : part.isContinuation = false) :
    ∃ c, part.read = [c] ∧ part.units = c.units ∧ c.isHigh = part.isHigh ∧
      c.isLow = part.isLow := by
  have hchar : ∀ c : Char, (CodePoint.ofChar c).isHigh = false ∧
      (CodePoint.ofChar c).isLow = false :=
    fun c ↦ CodePoint.isSurrogate_eq_false_iff.mp (CodePoint.isSurrogate_ofChar c)
  cases part with
  | plain c => exact ⟨_, rfl, rfl, (hchar c).1, (hchar c).2⟩
  | single c => exact ⟨_, rfl, rfl, (hchar _).1, (hchar _).2⟩
  | zero => exact ⟨_, rfl, by decide, by decide, by decide⟩
  | byte digits =>
    have hlt : numberOf digits < 16 ^ 2 := hspelled.1 ▸ numberOf_lt
    have hle : numberOf digits ≤ 0x10FFFF := by omega
    obtain ⟨c, hpoint, hc, -⟩ := exists_ofNat?_numberOf hle
    have hscalar : c.isSurrogate = false := by
      simp only [CodePoint.isSurrogate, Bool.and_eq_false_iff, decide_eq_false_iff_not]
      omega
    obtain ⟨hhigh, hlow⟩ := CodePoint.isSurrogate_eq_false_iff.mp hscalar
    exact ⟨c, by rw [StringPart.read, hpoint]; rfl, units_of_lt hc (by omega), hhigh, hlow⟩
  | unit digits =>
    have hlt : numberOf digits < 16 ^ 4 := hspelled.1 ▸ numberOf_lt
    have hle : numberOf digits ≤ 0x10FFFF := by omega
    obtain ⟨c, hpoint, hc, -⟩ := exists_ofNat?_numberOf hle
    refine ⟨c, by rw [StringPart.read, hpoint]; rfl, units_of_lt hc (by omega), ?_, ?_⟩
    · rw [CodePoint.isHigh, hc]
      rfl
    · rw [CodePoint.isLow, hc]
      rfl
  | point digits =>
    obtain ⟨c, hpoint, hc, -⟩ := exists_ofNat?_numberOf hspelled.2.2
    refine ⟨c, by rw [StringPart.read, hpoint]; rfl, ?_, ?_, ?_⟩
    · rw [StringPart.units, hpoint]
      exact List.append_nil c.units
    · rw [CodePoint.isHigh, hc]
      rfl
    · rw [CodePoint.isLow, hc]
      rfl
  | continuation lineEnd => cases hpart

/-- A continued line is read as nothing, unless a separator stands behind the backslash. -/
theorem read_eq_nil (hspelled : part.IsSpelled quote) (hpart : part.isContinuation = true)
    (hnot : ∀ c, isSeparator c = true → part ≠ .continuation [c]) : part.read = [] := by
  cases part with
  | continuation lineEnd =>
    simp only [IsSpelled, lineEnds, List.mem_cons, List.not_mem_nil, or_false] at hspelled
    rcases hspelled with rfl | rfl | rfl | rfl | rfl
    · rfl
    · rfl
    · rfl
    · exact absurd rfl (hnot '\u2028' (by decide))
    · exact absurd rfl (hnot '\u2029' (by decide))
  | _ => cases hpart

/-! ### Literals -/

theorem not_leavesSeparator_tail (h : ¬ LeavesSeparator (part :: parts)) :
    ¬ LeavesSeparator parts := by
  rintro (⟨c, hc, hmem⟩ | ⟨front, taking, c, rest, rfl, htakes⟩)
  · exact h (.inl ⟨c, hc, List.mem_cons_of_mem _ hmem⟩)
  · exact h (.inr ⟨part :: front, taking, c, rest, rfl, htakes⟩)

/-- Where no separator is left to an escape sequence, a literal is read part by part. -/
theorem readText_eq_flatMap (h : ¬ LeavesSeparator parts) :
    readText parts = parts.flatMap StringPart.read := by
  refine readText_of_takes fun front part c rest hparts ↦ ?_
  rw [Bool.eq_false_iff]
  exact fun htakes ↦ h (.inr ⟨front, part, c, rest, hparts, htakes⟩)

theorem ne_separator_of_mem (h : ¬ LeavesSeparator parts) (hpart : part ∈ parts) :
    ∀ c, isSeparator c = true → part ≠ .continuation [c] := by
  rintro c hc rfl
  exact h (.inl ⟨c, hc, hpart⟩)

theorem isSpelled_of_mem (h : IsBody quote parts) (hpart : part ∈ parts) :
    part.IsSpelled quote := by
  induction parts with
  | nil => cases hpart
  | cons first parts ih =>
    rcases List.mem_cons.mp hpart with rfl | hpart
    · exact h.1
    · exact ih h.2.2 hpart

/-- The parts that are left of a literal are those that are read as a code point. -/
theorem readText_eq_map (h : IsBody quote parts) (hleaves : ¬ LeavesSeparator parts) :
    readText parts = (parts.filter (!·.isContinuation)).map StringPart.character := by
  rw [readText_eq_flatMap hleaves]
  induction parts with
  | nil => rfl
  | cons part parts ih =>
    have ih := ih h.2.2 (not_leavesSeparator_tail hleaves)
    cases hcontinues : part.isContinuation with
    | false =>
      obtain ⟨c, hread, -⟩ := exists_read_eq_singleton h.1 hcontinues
      have hcharacter : part.character = c := by rw [character, hread]; rfl
      rw [List.flatMap_cons, hread, ih, List.filter_cons_of_pos (by simp [hcontinues]),
        List.map_cons, hcharacter]
      rfl
    | true =>
      rw [List.flatMap_cons, read_eq_nil h.1 hcontinues (ne_separator_of_mem hleaves (by simp)),
        ih, List.filter_cons_of_neg (by simp [hcontinues])]
      rfl

/-- The value of a literal has the units of what it is read as, part by part. -/
theorem valueUnits_eq (h : IsBody quote parts) (hleaves : ¬ LeavesSeparator parts) :
    valueUnits parts = Text.utf16 (readText parts) := by
  have hpart : ∀ part ∈ parts, part.units = Text.utf16 part.read := by
    intro part hmem
    have hspelled := isSpelled_of_mem h hmem
    cases hcontinues : part.isContinuation with
    | false =>
      obtain ⟨c, hread, hunits, -⟩ := exists_read_eq_singleton hspelled hcontinues
      rw [hread, hunits]
      exact (List.append_nil c.units).symm
    | true =>
      rw [read_eq_nil hspelled hcontinues (ne_separator_of_mem hleaves hmem)]
      cases part <;> first | rfl | cases hcontinues
  rw [readText_eq_flatMap hleaves, valueUnits, Text.utf16, List.flatMap_assoc]
  exact List.flatMap_congr hpart

/-- What a literal is read as holds a pair exactly if the literal spells one. -/
theorem holdsPair_readText_iff (h : IsBody quote parts) (hleaves : ¬ LeavesSeparator parts) :
    Text.HoldsPair (readText parts) ↔ SpellsPair parts := by
  have hcharacter : ∀ part ∈ parts.filter (!·.isContinuation),
      part.character.isHigh = part.isHigh ∧ part.character.isLow = part.isLow := by
    intro part hmem
    obtain ⟨hmem, hcontinues⟩ := List.mem_filter.mp hmem
    obtain ⟨c, hread, -, hhigh, hlow⟩ :=
      exists_read_eq_singleton (isSpelled_of_mem h hmem) (by simpa using hcontinues)
    rw [character, hread]
    exact ⟨hhigh, hlow⟩
  rw [readText_eq_map h hleaves, Text.holdsPair_map]
  constructor
  · rintro ⟨front, high, low, rest, hparts, hhigh, hlow⟩
    rw [(hcharacter high (by simp [hparts])).1] at hhigh
    rw [(hcharacter low (by simp [hparts])).2] at hlow
    exact ⟨front, high, low, rest, hparts, hhigh, hlow⟩
  · rintro ⟨front, high, low, rest, hparts, hhigh, hlow⟩
    rw [← (hcharacter high (by simp [hparts])).1] at hhigh
    rw [← (hcharacter low (by simp [hparts])).2] at hlow
    exact ⟨front, high, low, rest, hparts, hhigh, hlow⟩

/-- A literal is read as a text, wherever it stands and as what a story file exports. -/
structure IsReadAs (literal : List Char) (text : Text) : Prop where
  anywhere : ∃ pieces, Expression.ofTree (.string pieces) = .ok (.string text) ∧
    ∀ {scope : Scope} {left rest : List Char}, LeadsTo left (literal ++ rest) →
      Reads quoted scope left rest pieces
  exported : ∀ path : Option Path, ∃ line,
    StoryFile.read path (("export const X = " : Text) ++ Text.ofChars literal ++ ";") =
      .ok { path, stories := .ofList [("X",
        { exportName := "X", line, initializer := .string text })] }

/-- A literal of strict code is read as what its parts are decoded to. -/
theorem isReadAs_literalOf (hquote : quote = '"' ∨ quote = '\'') (h : IsBody quote parts) :
    IsReadAs (literalOf quote parts) (readText parts) := by
  obtain ⟨pieces, hdecode, hreads⟩ := exists_reads_literalOf hquote h
  have htree : Expression.ofTree (.string pieces) = .ok (.string (readText parts)) := by
    rw [Expression.ofTree, hdecode]
    rfl
  refine ⟨⟨pieces, htree, hreads⟩, fun path ↦ ?_⟩
  refine StoryFile.exists_read_exportOf_literal path (by simp [literalOf]) ?_ ?_ htree
  · intro scope levels
    have hleft : LeadsTo (' ' :: (literalOf quote parts ++ [';']))
        (literalOf quote parts ++ [';']) := by
      apply LeadsTo.blank
      rcases hquote with rfl | rfl <;> exact .refl (by decide) (by decide)
    have hrest : Closes [';'] := ⟨';', rfl, by decide⟩
    exact Expressions.reads_expression hleft
      (Expressions.reads_operand_quoted hquote hleft (hreads hleft) hrest) hrest
  · simp [Tree.preorder, Tree.IsAssignment]

/-- Every literal of strict code is read. Where no separator is left to an escape sequence, it is
read as the text of its value exactly if it spells no pair of surrogates by two escapes; and if the
value is well-formed, what is read holds a surrogate exactly if the literal spells such a pair. -/
theorem readText_eq_value_iff (hquote : quote = '"' ∨ quote = '\'') (h : IsBody quote parts) :
    IsReadAs (literalOf quote parts) (readText parts) ∧
      (¬ LeavesSeparator parts →
        (readText parts = Text.ofUnits (valueUnits parts) ↔ ¬ SpellsPair parts) ∧
        (Text.IsWellFormed (valueUnits parts) →
          ((readText parts).IsScalar ↔ ¬ SpellsPair parts))) := by
  refine ⟨isReadAs_literalOf hquote h, ?_⟩
  intro hleaves
  rw [valueUnits_eq h hleaves, ← holdsPair_readText_iff h hleaves]
  refine ⟨?_, Text.isScalar_iff_of_isWellFormed⟩
  rw [← Text.ofUnits_utf16_iff, eq_comm]

/-- A literal with an escape sequence of every kind is read as the text of its value. -/
theorem readText_eq_value_assorted :
    let parts : List StringPart := [.plain 'a', .single 'n', .single '"', .zero, .byte ['4', '1'],
      .unit ['0', '0', 'e', '9'], .continuation ['\r', '\n'], .point ['1', 'F', '6', '0', '0']]
    IsReadAs (literalOf '\'' parts) (readText parts) ∧
      readText parts = Text.ofUnits (valueUnits parts) ∧ (readText parts).IsScalar := by
  intro parts
  have hbody : IsBody '\'' parts := by decide
  have hleaves : ¬ LeavesSeparator parts := not_leavesSeparator_of_spell (by decide)
  have hpair : ¬ SpellsPair parts := not_spellsPair_of_forall (by decide)
  have hformed : Text.IsWellFormed (valueUnits parts) :=
    ⟨"a\n\"\x00Aé😀", by decide, by decide⟩
  obtain ⟨hread, hvalue⟩ := readText_eq_value_iff (.inr rfl) hbody
  exact ⟨hread, (hvalue hleaves).1.mpr hpair, ((hvalue hleaves).2 hformed).mpr hpair⟩

/-- The text that a literal is read as, where a story file exports it. -/
def textExported (literal : List Char) : Option Text :=
  match StoryFile.read none (("export const B = " : Text) ++ Text.ofChars literal ++ ";") with
  | .ok file => (file.stories.get? "B").bind (·.initializer.plainString?)
  | .error _ => none

/-- Two escapes that are one character are read as two surrogates, and a separator behind a
backslash is read as itself. -/
theorem surrogates_read_for_pair :
    let pair : List StringPart := [.unit ['d', '8', '3', 'd'], .unit ['d', 'e', '0', '0']]
    let continued : List StringPart := [.continuation ['\u2028']]
    IsBody '\'' pair ∧ Text.ofUnits (valueUnits pair) = "😀" ∧
      textExported (literalOf '\'' pair) =
        some [⟨0xD83D, by decide⟩, ⟨0xDE00, by decide⟩] ∧
      IsBody '\'' continued ∧ Text.ofUnits (valueUnits continued) = [] ∧
      textExported (literalOf '\'' continued) = some [⟨0x2028, by decide⟩] := by
  decide +kernel

end StoryCatalog
