import StoryCatalog.Proofs.Literal.Decoding
import StoryCatalog.Proofs.Script.Literals

/-!
# String literals

The body of a string literal is made of plain characters and escape sequences. How a literal is
spelled part by part is one thing, how it is read piece by piece another: a run of plain characters
is one piece, and a line or paragraph separator behind `\?` or behind a continued return belongs to
the escape sequence. `exists_fallsInto` says for every literal of strict code which text its pieces
denote.
-/

namespace StoryCatalog.Script

open Reading

/-- A part of the body of a string literal. -/
inductive StringPart where
  /-- A character that stands for itself. -/
  | plain (c : Char)
  /-- A backslash in front of one character. -/
  | single (c : Char)
  /-- The null character, spelled with a zero. -/
  | zero
  /-- Two hexadecimal digits behind `\x`. -/
  | byte (digits : List Char)
  /-- Four hexadecimal digits behind `\u`. -/
  | unit (digits : List Char)
  /-- Hexadecimal digits in braces behind `\u`. -/
  | point (digits : List Char)
  /-- A backslash in front of a line end, which continues the line. -/
  | continuation (lineEnd : List Char)
  deriving DecidableEq

/-- The sequences that end a line. -/
def lineEnds : List (List Char) := [['\n'], ['\r'], ['\r', '\n'], ['\u2028'], ['\u2029']]

/-- Whether a character separates lines or paragraphs. -/
def isSeparator (c : Char) : Bool := c.toNat == 0x2028 || c.toNat == 0x2029

namespace StringPart

/-- The characters that a part is spelled with. -/
def spelling : StringPart → List Char
  | plain c => [c]
  | single c => ['\\', c]
  | zero => ['\\', '0']
  | byte digits => '\\' :: 'x' :: digits
  | unit digits => '\\' :: 'u' :: digits
  | point digits => '\\' :: 'u' :: '\x7b' :: (digits ++ ['\x7d'])
  | continuation lineEnd => '\\' :: lineEnd

/-- The number that hexadecimal digits denote. -/
def numberOf (digits : List Char) : Nat := Escape.hexNumber (Text.ofChars digits)

/-- What strict code may spell between two quotes of a kind. -/
def IsSpelled (quote : Char) : StringPart → Prop
  | plain c => isPlain quote c = true
  | single c => c ≠ 'x' ∧ c ≠ 'u' ∧ c.isDigit = false ∧ isLineEnd c = false
  | zero => True
  | byte digits => digits.length = 2 ∧ ∀ c ∈ digits, isHexDigit c = true
  | unit digits => digits.length = 4 ∧ ∀ c ∈ digits, isHexDigit c = true
  | point digits => digits ≠ [] ∧ (∀ c ∈ digits, isHexDigit c = true) ∧ numberOf digits ≤ 0x10FFFF
  | continuation lineEnd => lineEnd ∈ lineEnds

-- The digits are gone through as a list: a statement about the members of a list is otherwise taken
-- for one about all characters.
instance (quote : Char) : (part : StringPart) → Decidable (part.IsSpelled quote)
  | plain c => inferInstanceAs (Decidable (isPlain quote c = true))
  | single c => inferInstanceAs
    (Decidable (c ≠ 'x' ∧ c ≠ 'u' ∧ c.isDigit = false ∧ isLineEnd c = false))
  | zero => .isTrue trivial
  | byte digits => decidable_of_iff (digits.length = 2 ∧ digits.all isHexDigit = true)
    (and_congr_right fun _ ↦ List.all_eq_true)
  | unit digits => decidable_of_iff (digits.length = 4 ∧ digits.all isHexDigit = true)
    (and_congr_right fun _ ↦ List.all_eq_true)
  | point digits => decidable_of_iff
    (digits ≠ [] ∧ digits.all isHexDigit = true ∧ numberOf digits ≤ 0x10FFFF)
    (and_congr_right fun _ ↦ and_congr_left fun _ ↦ List.all_eq_true)
  | continuation lineEnd => inferInstanceAs (Decidable (lineEnd ∈ lineEnds))

/-- The character that one character behind a backslash stands for. -/
def escaped : Char → Char
  | 'b' => '\x08'
  | 't' => '\t'
  | 'n' => '\n'
  | 'v' => '\x0b'
  | 'f' => '\x0c'
  | 'r' => '\r'
  | c => c

/-- The text that a part is decoded as. -/
def read : StringPart → Text
  | plain c => [CodePoint.ofChar c]
  | single c => [CodePoint.ofChar (escaped c)]
  | zero => [CodePoint.ofChar '\x00']
  | byte digits => (CodePoint.ofNat? (numberOf digits)).toList
  | unit digits => (CodePoint.ofNat? (numberOf digits)).toList
  | point digits => (CodePoint.ofNat? (numberOf digits)).toList
  | continuation lineEnd => Text.ofChars (lineEnd.filter isSeparator)

/-- Whether the escape sequence of a part takes in the character behind it. -/
def takes : StringPart → Char → Bool
  | single '?', c => isSeparator c
  | continuation ['\r'], c => isSeparator c
  | _, _ => false

end StringPart

open StringPart

/-- The characters of a body. -/
def spell (parts : List StringPart) : List Char := parts.flatMap spelling

/-- Parts that strict code may spell one after another: no digit stands behind a null character. -/
def IsBody (quote : Char) : List StringPart → Prop
  | [] => True
  | part :: parts => part.IsSpelled quote ∧
    (part = .zero → ∀ c ∈ (spell parts).head?, c.isDigit = false) ∧ IsBody quote parts

instance (quote : Char) : (parts : List StringPart) → Decidable (IsBody quote parts)
  | [] => .isTrue trivial
  | part :: parts =>
    have : Decidable (∀ c ∈ (spell parts).head?, c.isDigit = false) :=
      (spell parts).head?.decidableForallMem
    have : Decidable (IsBody quote parts) := instDecidableIsBody quote parts
    inferInstanceAs (Decidable (part.IsSpelled quote ∧
      (part = .zero → ∀ c ∈ (spell parts).head?, c.isDigit = false) ∧ IsBody quote parts))

/-- The text that the body of a literal is read as. -/
def readText : List StringPart → Text
  | [] => []
  | part :: .plain c :: parts =>
    part.read ++ if part.takes c then readText parts else readText (.plain c :: parts)
  | part :: parts => part.read ++ readText parts

variable {scope : Scope} {quote : Char} {left rest cs : List Char} {pieces : List Piece}
  {text : Text} {part : StringPart} {parts : List StringPart}

/-! ### Escape sequences -/

/-- A token is read as one escape sequence in front of given characters. -/
def IsEscapeBefore (token cs : List Char) : Prop :=
  ∀ scope : Scope, token ++ cs <:+ scope.source.toList →
    endOfEscape? scope.source (scope.offset (token ++ cs)) = some (scope.offset cs)

private theorem not_octal {c : Char} (h : c.isDigit = false) : ('0' ≤ c && c ≤ '7') = false := by
  rw [Bool.eq_false_iff]
  intro hoctal
  rw [Bool.and_eq_true, decide_eq_true_eq, decide_eq_true_eq] at hoctal
  have hdigit : c.isDigit = true := by
    rw [Char.isDigit, Bool.and_eq_true, decide_eq_true_eq, decide_eq_true_eq]
    exact ⟨hoctal.1, UInt32.le_trans hoctal.2 (by decide)⟩
  rw [h] at hdigit
  cases hdigit

theorem isEscapeBefore_zero (h : ∀ c ∈ cs.head?, c.isDigit = false) :
    IsEscapeBefore ['\\', '0'] cs := by
  intro scope hleft
  have hsuffix : '0' :: cs <:+ scope.source.toList := (List.suffix_append ['\\'] _).trans hleft
  have hstart : scope.offset ('0' :: cs) = scope.offset ('\\' :: '0' :: cs) + 1 :=
    Scope.offset_cons hleft
  have hrest : scope.offset cs = scope.offset ('0' :: cs) + 1 := Scope.offset_cons hsuffix
  have hdrop : (scope.source.extract 0 (scope.offset ('\\' :: '0' :: cs) + 4)).toList.drop
      (scope.offset ('0' :: cs)) = ('0' :: cs).take 3 := by
    rw [Array.toList_extract, List.extract_eq_take_drop, List.drop_zero, Nat.sub_zero,
      List.drop_take, Scope.drop_offset hsuffix, hstart]
    congr 1
    omega
  have htake : (('0' :: cs).take 3).takeWhile (fun d ↦ '0' ≤ d && d ≤ '7') = ['0'] := by
    cases cs with
    | nil => rfl
    | cons c cs => simp [not_octal (h c rfl)]
  unfold endOfEscape?
  rw [Scope.getElem?_offset hleft 1]
  change (if ('0' ≤ '0' && '0' ≤ '7') = true then some (endOfRun _ _ _) else _) = _
  rw [if_pos (by decide)]
  refine congrArg some ?_
  change endOfRun _ _ (scope.offset ('\\' :: '0' :: cs) + 1) = _
  rw [← hstart, endOfRun_eq]
  change _ + (((scope.source.extract 0 (scope.offset ('\\' :: '0' :: cs) + 4)).toList.drop
    _).takeWhile _).length = _
  rw [hdrop, htake, hrest]
  rfl

theorem isEscapeBefore_byte {digits : List Char} (hlength : digits.length = 2)
    (hdigits : ∀ c ∈ digits, isHexDigit c = true) (cs : List Char) :
    IsEscapeBefore ('\\' :: 'x' :: digits) cs := by
  intro scope hleft
  have hsuffix : digits ++ cs <:+ scope.source.toList :=
    (List.suffix_append ['\\', 'x'] (digits ++ cs)).trans hleft
  have hstart : scope.offset (digits ++ cs) = scope.offset ('\\' :: 'x' :: digits ++ cs) + 2 :=
    Scope.offset_append (show ['\\', 'x'] ++ (digits ++ cs) <:+ scope.source.toList from hleft)
  have hrest : scope.offset cs = scope.offset ('\\' :: 'x' :: digits ++ cs) + 4 := by
    rw [Scope.offset_append hsuffix, hstart, hlength]
  have hrun := endOfRun_extract hdigits hsuffix
  rw [hstart, hlength] at hrun
  unfold endOfEscape?
  rw [Scope.getElem?_offset hleft 1]
  change (if endOfRun _ _ _ = _ then _ else _) = _
  rw [if_pos hrun, hrest]
  exact congrArg some hrun

theorem isEscapeBefore_point {digits : List Char} (hne : digits ≠ [])
    (hdigits : ∀ c ∈ digits, isHexDigit c = true) (cs : List Char) :
    IsEscapeBefore ('\\' :: 'u' :: '\x7b' :: (digits ++ ['\x7d'])) cs := by
  intro scope hleft
  simp only [List.cons_append, List.append_assoc, List.nil_append] at hleft ⊢
  have hsuffix : digits ++ '\x7d' :: cs <:+ scope.source.toList :=
    (List.suffix_append ['\\', 'u', '\x7b'] _).trans hleft
  have hstart : scope.offset (digits ++ '\x7d' :: cs) =
      scope.offset ('\\' :: 'u' :: '\x7b' :: (digits ++ '\x7d' :: cs)) + 3 :=
    Scope.offset_append (show ['\\', 'u', '\x7b'] ++ (digits ++ '\x7d' :: cs) <:+ _ from hleft)
  have hclose : '\x7d' :: cs <:+ scope.source.toList := (List.suffix_append _ _).trans hsuffix
  have hrun : endOfRun scope.source isHexDigit (scope.offset (digits ++ '\x7d' :: cs)) =
      scope.offset ('\x7d' :: cs) := by
    refine endOfRun_offset hsuffix hdigits ?_
    rintro c ⟨⟩
    decide
  have hmoved : scope.offset (digits ++ '\x7d' :: cs) < scope.offset ('\x7d' :: cs) := by
    rw [Scope.offset_append hsuffix]
    have hlength := List.length_pos_iff.mpr hne
    omega
  rw [hstart] at hrun hmoved
  unfold endOfEscape?
  rw [Scope.getElem?_offset hleft 1]
  change (if scope.source[_]? = some '\x7b' then
    (if decide _ && decide (scope.source[endOfRun _ _ _]? = _) then _ else _) else _) = _
  rw [Scope.getElem?_offset hleft 2, if_pos (by rfl), hrun, Scope.head?_offset hclose,
    Scope.offset_cons hclose]
  simp [hmoved]

/-- Whether the escape sequence of a part ends in front of a character. -/
def StringPart.EndsBefore : StringPart → Char → Prop
  | .single d, c => isTakenBehind d c = false
  | .zero, c => c.isDigit = false
  | .continuation lineEnd, c => lineEnd = ['\r'] → isTakenBehind '\r' c = false
  | .plain _, _ | .byte _, _ | .unit _, _ | .point _, _ => True

/-- Whether a part is an escape sequence. -/
def StringPart.isEscape : StringPart → Bool
  | .plain _ => false
  | _ => true

private theorem isTakenBehind_iff {d c : Char} :
    isTakenBehind d c = true ↔ (d = '\r' ∨ d = '?') ∧ (c = '\n' ∨ isSeparator c = true) := by
  have hreturn : isSeparator '\r' = false := by decide
  have hline : isLineEnd c = true ∧ c ≠ '\r' ↔ c = '\n' ∨ isSeparator c = true := by
    constructor
    · rintro ⟨hend, hne⟩
      simpa [isLineEnd, isSeparator, hne, or_assoc] using hend
    · rintro (rfl | hc)
      · decide
      · refine ⟨?_, ?_⟩
        · simp only [isSeparator, Bool.or_eq_true, beq_iff_eq] at hc
          simpa [isLineEnd, or_assoc] using .inr (.inr hc)
        · rintro rfl
          rw [hreturn] at hc
          cases hc
  rw [← hline]
  simp [isTakenBehind, and_assoc]

private theorem isTakenBehind_eq_false {d c : Char} (hfeed : c ≠ '\n')
    (hc : d = '\r' ∨ d = '?' → isSeparator c = false) : isTakenBehind d c = false := by
  rw [Bool.eq_false_iff, Ne, isTakenBehind_iff]
  rintro ⟨hd, hline | hseparator⟩
  · exact hfeed hline
  · rw [hc hd] at hseparator
    cases hseparator

/-- An escape sequence is read as one up to its end. -/
theorem isEscapeBefore_spelling (hescape : part.isEscape = true) (hspelled : part.IsSpelled quote)
    (hends : ∀ c ∈ cs.head?, part.EndsBefore c) : IsEscapeBefore part.spelling cs := by
  cases part with
  | plain c => cases hescape
  | single d =>
    obtain ⟨hx, hu, hdigit, -⟩ := hspelled
    intro scope hleft
    exact endOfEscape?_single hx hu (not_octal hdigit) hends hleft
  | zero => exact isEscapeBefore_zero hends
  | byte digits => exact isEscapeBefore_byte hspelled.1 hspelled.2 cs
  | unit digits =>
    intro scope hleft
    exact endOfEscape?_number hspelled.1 hspelled.2 hleft
  | point digits => exact isEscapeBefore_point hspelled.1 hspelled.2.1 cs
  | continuation lineEnd =>
    have hsingle : ∀ d, d = '\n' ∨ d = '\u2028' ∨ d = '\u2029' → IsEscapeBefore ['\\', d] cs := by
      intro d hd scope hleft
      have hmarks : d ≠ 'x' ∧ d ≠ 'u' ∧ ('0' ≤ d && d ≤ '7') = false ∧ d ≠ '\r' ∧ d ≠ '?' := by
        rcases hd with rfl | rfl | rfl <;> decide
      obtain ⟨hx, hu, hdigit, hreturn, hquestion⟩ := hmarks
      refine endOfEscape?_single hx hu hdigit ?_ hleft
      intro c _
      simp [isTakenBehind, hreturn, hquestion]
    simp only [IsSpelled, lineEnds, List.mem_cons, List.not_mem_nil, or_false] at hspelled
    rcases hspelled with rfl | rfl | rfl | rfl | rfl
    · exact hsingle _ (.inl rfl)
    · intro scope hleft
      have hbehind : ∀ c ∈ cs.head?, isTakenBehind '\r' c = false := fun c hc ↦ hends c hc rfl
      exact endOfEscape?_single (by decide) (by decide) (by decide) hbehind hleft
    · intro scope hleft
      exact endOfEscape?_taken (by decide) hleft
    · exact hsingle _ (.inr (.inl rfl))
    · exact hsingle _ (.inr (.inr rfl))

/-- A separator that is taken in belongs to the escape sequence. -/
theorem isEscapeBefore_takes {c : Char} (h : part.takes c = true) (cs : List Char) :
    IsEscapeBefore (part.spelling ++ [c]) cs := by
  intro scope hleft
  unfold takes at h
  split at h
  · exact endOfEscape?_taken (isTakenBehind_iff.mpr ⟨.inr rfl, .inr h⟩) hleft
  · exact endOfEscape?_taken (isTakenBehind_iff.mpr ⟨.inl rfl, .inr h⟩) hleft
  · cases h

/-! ### Decoding -/

private theorem ofChar_ne {c d : Char} (h : c ≠ d) : CodePoint.ofChar c ≠ CodePoint.ofChar d :=
  mt CodePoint.ofChar_inj.mp h

private theorem letter_ofChar {c : Char} (h : c.isDigit = false) :
    Escape.letter (CodePoint.ofChar c) = CodePoint.ofChar (escaped c) := by
  have hzero : c ≠ '0' := by
    rintro rfl
    cases h
  unfold escaped
  split
  case h_7 hb ht hn hv hf hr =>
    unfold Escape.letter
    rw [if_neg (ofChar_ne hn), if_neg (ofChar_ne ht), if_neg (ofChar_ne hr), if_neg (ofChar_ne hb),
      if_neg (ofChar_ne hf), if_neg (ofChar_ne hv), if_neg (ofChar_ne hzero)]
  all_goals rfl

/-- The point of a number that hexadecimal digits denote, unless it is beyond the last one. -/
theorem exists_ofNat?_numberOf {digits : List Char} (h : numberOf digits ≤ 0x10FFFF) :
    ∃ c, CodePoint.ofNat? (numberOf digits) = some c ∧ c.val = numberOf digits ∧
      Escape.pointOf (numberOf digits) = .ok c := by
  have hlt : numberOf digits < 0x110000 := by omega
  refine ⟨⟨numberOf digits, hlt⟩, dif_pos hlt, rfl, ?_⟩
  rw [Escape.pointOf, CodePoint.ofNat?, dif_pos hlt]

theorem numberOf_lt {digits : List Char} : numberOf digits < 16 ^ digits.length :=
  Escape.hexNumber_lt (Nat.le_of_eq (by rw [Text.ofChars, List.length_map]))

private theorem takeWhile_digits {digits : List Char} (h : ∀ c ∈ digits, isHexDigit c = true) :
    (Text.ofChars digits).takeWhile CodePoint.isHexDigit = Text.ofChars digits := by
  rw [List.takeWhile_eq_self_iff]
  intro c hc
  obtain ⟨d, hd, rfl⟩ := List.mem_map.mp hc
  exact h d hd

/-- An escape sequence is a backslash and at least one character behind it. -/
theorem exists_spelling_eq (hescape : part.isEscape = true) (hspelled : part.IsSpelled quote) :
    ∃ c tail, part.spelling = '\\' :: c :: tail := by
  cases part with
  | plain c => cases hescape
  | continuation lineEnd =>
    have hne : ∀ lineEnd ∈ lineEnds, lineEnd ≠ [] := by decide
    obtain ⟨c, tail, rfl⟩ := List.exists_cons_of_ne_nil (hne lineEnd hspelled)
    exact ⟨c, tail, rfl⟩
  | _ => exact ⟨_, _, rfl⟩

/-- The digits of the sequence by number that a part is spelled with. -/
def StringPart.digits? : StringPart → Option (List Char)
  | .byte digits => some digits
  | .unit digits => some digits
  | .point digits => some digits
  | _ => none

private theorem val_ofChar_ne {c d : Char} {n : Nat} (hd : d.toNat = n) (h : c ≠ d) :
    ¬ (CodePoint.ofChar c).val = n := fun heq ↦ h (Char.toNat_inj.mp (heq.trans hd.symm))

private theorem numbered?_of_ne {c : Char} (hx : c ≠ 'x') (hu : c ≠ 'u') (t : Text) :
    Escape.numbered? (CodePoint.ofChar c :: t) = none := by
  unfold Escape.numbered?
  dsimp only
  rw [if_neg (val_ofChar_ne (n := 0x75) rfl hu), if_neg (val_ofChar_ne (n := 0x78) rfl hx)]

private theorem numbered?_byte {digits : List Char} (hlength : digits.length = 2)
    (hdigits : ∀ c ∈ digits, isHexDigit c = true) (t : Text) :
    Escape.numbered? (CodePoint.ofChar 'x' :: (Text.ofChars digits ++ t)) =
      some (3, Text.ofChars digits) := by
  have htake : (Text.ofChars digits ++ t).take 2 = Text.ofChars digits :=
    List.take_left' (by rw [Text.ofChars, List.length_map, hlength])
  unfold Escape.numbered?
  dsimp only
  rw [if_neg (by decide), if_pos (by decide), htake, takeWhile_digits hdigits, if_pos]
  rw [Text.ofChars, List.length_map, hlength]

private theorem numbered?_unit {digits : List Char} (hlength : digits.length = 4)
    (hdigits : ∀ c ∈ digits, isHexDigit c = true) (t : Text) :
    Escape.numbered? (CodePoint.ofChar 'u' :: (Text.ofChars digits ++ t)) =
      some (5, Text.ofChars digits) := by
  obtain ⟨d, more, rfl⟩ := List.exists_cons_of_length_pos (show 0 < digits.length by omega)
  have hbrace : d ≠ '\x7b' := by
    rintro rfl
    cases hdigits _ List.mem_cons_self
  have htake : (Text.ofChars (d :: more) ++ t).take 4 = Text.ofChars (d :: more) :=
    List.take_left' (by rw [Text.ofChars, List.length_map, hlength])
  have hdigits' : ((Text.ofChars (d :: more) ++ t).take 4).takeWhile CodePoint.isHexDigit =
      Text.ofChars (d :: more) := by rw [htake, takeWhile_digits hdigits]
  unfold Escape.numbered?
  change (if _ then (if (CodePoint.ofChar d).val = 0x7B then _ else none) <|>
    (if (((Text.ofChars (d :: more) ++ t).take 4).takeWhile CodePoint.isHexDigit).length = 4 then
      some (5, ((Text.ofChars (d :: more) ++ t).take 4).takeWhile CodePoint.isHexDigit) else none)
    else _) = _
  rw [if_pos (by decide), if_neg (val_ofChar_ne (n := 0x7B) rfl hbrace), hdigits',
    if_pos]
  · rfl
  · rw [Text.ofChars, List.length_map, hlength]

private theorem numbered?_point {digits : List Char} (hne : digits ≠ [])
    (hdigits : ∀ c ∈ digits, isHexDigit c = true) (t : Text) :
    Escape.numbered? (CodePoint.ofChar 'u' :: CodePoint.ofChar '\x7b' ::
      (Text.ofChars digits ++ CodePoint.ofChar '\x7d' :: t)) =
        some (digits.length + 3, Text.ofChars digits) := by
  have hall : (Text.ofChars digits).all CodePoint.isHexDigit = true := by
    simpa [Text.ofChars, isHexDigit] using hdigits
  rw [Escape.numbered?_braced hall (by simpa [Text.ofChars] using hne), Text.ofChars,
    List.length_map]

/-- A sequence by number is found whatever stands behind it, and none is found in front of another
escape sequence. -/
theorem numbered?_spelling (hescape : part.isEscape = true) (hspelled : part.IsSpelled quote)
    (t : Text) :
    Escape.numbered? (Text.ofChars part.spelling.tail ++ t) =
      part.digits?.map fun digits ↦ (part.spelling.tail.length, Text.ofChars digits) := by
  cases part with
  | plain c => cases hescape
  | single c => exact numbered?_of_ne hspelled.1 hspelled.2.1 t
  | zero => exact numbered?_of_ne (by decide) (by decide) t
  | byte digits =>
    refine (numbered?_byte hspelled.1 hspelled.2 t).trans ?_
    rw [digits?, Option.map_some, spelling, List.tail_cons, List.length_cons, hspelled.1]
  | unit digits =>
    refine (numbered?_unit hspelled.1 hspelled.2 t).trans ?_
    rw [digits?, Option.map_some, spelling, List.tail_cons, List.length_cons, hspelled.1]
  | point digits =>
    have hspelling : Text.ofChars (point digits).spelling.tail ++ t =
        CodePoint.ofChar 'u' :: CodePoint.ofChar '\x7b' ::
          (Text.ofChars digits ++ CodePoint.ofChar '\x7d' :: t) := by
      simp [spelling, Text.ofChars]
    rw [hspelling, numbered?_point hspelled.1 hspelled.2.1 t]
    simp [digits?, spelling]
  | continuation lineEnd =>
    have hmarks : ∀ lineEnd ∈ lineEnds, ∃ c more, lineEnd = c :: more ∧ c ≠ 'x' ∧ c ≠ 'u' := by
      simp [lineEnds]
    obtain ⟨c, more, rfl, hx, hu⟩ := hmarks lineEnd hspelled
    exact numbered?_of_ne hx hu _

/-- A number that fills its token is decoded as the code point with this number. -/
private theorem decode_numbered {digits : List Char} (hescape : part.isEscape = true)
    (hspelled : part.IsSpelled quote) (hdigits : part.digits? = some digits)
    (hnumber : numberOf digits ≤ 0x10FFFF) :
    Escape.decode (Text.ofChars part.spelling) =
      .ok (CodePoint.ofNat? (numberOf digits)).toList := by
  obtain ⟨point, hpoint, -, hok⟩ := exists_ofNat?_numberOf hnumber
  have hnumbered := numbered?_spelling hescape hspelled []
  rw [List.append_nil, hdigits, Option.map_some] at hnumbered
  obtain ⟨c, tail, hspelling⟩ := exists_spelling_eq hescape hspelled
  rw [hspelling, List.tail_cons] at hnumbered
  have hbody : Text.ofChars (c :: tail) = CodePoint.ofChar c :: Text.ofChars tail := rfl
  have hlength : (c :: tail).length = (Text.ofChars (c :: tail)).length := by simp [Text.ofChars]
  rw [hlength, hbody] at hnumbered
  rw [hspelling]
  change Escape.decode (CodePoint.ofChar '\\' :: CodePoint.ofChar c :: Text.ofChars tail) = _
  rw [Escape.decode, if_pos rfl, hnumbered]
  dsimp only
  rw [if_pos rfl, ← numberOf, hok, hpoint]
  rfl

/-- An escape sequence is decoded as the text of its part. -/
theorem decode_spelling (hescape : part.isEscape = true) (hspelled : part.IsSpelled quote) :
    Escape.decode (Text.ofChars part.spelling) = .ok part.read := by
  cases part with
  | plain c => cases hescape
  | single c =>
    obtain ⟨hx, hu, hdigit, hline⟩ := hspelled
    have hfeed : c ≠ '\n' ∧ c ≠ '\r' := by
      constructor <;> (rintro rfl; cases hline)
    have hspelling : Text.ofChars (single c).spelling =
        [CodePoint.ofChar '\\', CodePoint.ofChar c] := rfl
    rw [hspelling, Escape.decode, if_pos rfl, numbered?_of_ne hx hu]
    dsimp only
    rw [if_neg, letter_ofChar hdigit]
    · rfl
    · rw [Bool.or_eq_true, decide_eq_true_eq, decide_eq_true_eq, not_or]
      exact ⟨val_ofChar_ne rfl hfeed.1, val_ofChar_ne rfl hfeed.2⟩
  | zero => decide
  | byte digits =>
    have hlt : numberOf digits < 16 ^ 2 := hspelled.1 ▸ numberOf_lt
    exact decode_numbered rfl hspelled rfl (by omega)
  | unit digits =>
    have hlt : numberOf digits < 16 ^ 4 := hspelled.1 ▸ numberOf_lt
    exact decode_numbered rfl hspelled rfl (by omega)
  | point digits => exact decode_numbered rfl hspelled rfl hspelled.2.2
  | continuation lineEnd =>
    have hall : ∀ lineEnd ∈ lineEnds, Escape.decode (Text.ofChars (continuation lineEnd).spelling) =
        .ok (continuation lineEnd).read := by decide
    exact hall lineEnd hspelled

/-- A separator that is taken in is not decoded. -/
theorem decode_takes {c : Char} (h : part.takes c = true) :
    Escape.decode (Text.ofChars (part.spelling ++ [c])) = .ok part.read := by
  have hc : ∀ {c : Char}, isSeparator c = true → c = '\u2028' ∨ c = '\u2029' := by
    intro c hc
    simpa [isSeparator, ← Char.toNat_inj] using hc
  unfold takes at h
  split at h
  · rcases hc h with rfl | rfl <;> decide
  · rcases hc h with rfl | rfl <;> decide
  · cases h

/-! ### Pieces of a body -/

/-- How the body of a literal falls into pieces, and the text that these denote: runs of characters
of a class, and escape sequences. -/
inductive FallsInto (p : Char → Bool) (closing : Char) : List Char → List Piece → Text → Prop
  | done : FallsInto p closing [] [] []
  | run {run cs : List Char} {pieces : List Piece} {text : Text} (hne : run ≠ [])
    (hplain : ∀ c ∈ run, p c = true) (hends : ∀ c ∈ cs.head?, p c = false) :
    FallsInto p closing cs pieces text →
    FallsInto p closing (run ++ cs) (.fragment (Text.ofChars run) :: pieces)
      (Text.ofChars run ++ text)
  | token {token cs : List Char} {pieces : List Piece} {value text : Text}
    (hhead : token.head? = some '\\')
    (hends : ∀ rest, IsEscapeBefore token (cs ++ closing :: rest))
    (hvalue : Escape.decode (Text.ofChars token) = .ok value) :
    FallsInto p closing cs pieces text →
    FallsInto p closing (token ++ cs) (.escape (Text.ofChars token) :: pieces) (value ++ text)

variable {p : Char → Bool} {closing : Char}

/-- What a body falls into is read off it round by round, up to the closing mark. -/
theorem FallsInto.repeats {α : Type} {reader : Reading (Option α)} {ofPiece : Piece → α}
    (h : FallsInto p closing cs pieces text) (hclosing : p closing = false)
    (hstop : Reads reader scope (closing :: rest) (closing :: rest) none)
    (hrun : ∀ {run rest : List Char}, run ≠ [] → (∀ c ∈ run, p c = true) →
      (∀ c ∈ rest.head?, p c = false) →
      Reads reader scope (run ++ rest) rest (some (ofPiece (.fragment (Text.ofChars run)))))
    (htoken : ∀ {token rest : List Char}, token.head? = some '\\' →
      Reads escape scope (token ++ rest) rest (Text.ofChars token) →
      Reads reader scope (token ++ rest) rest (some (ofPiece (.escape (Text.ofChars token))))) :
    Repeats reader scope (cs ++ closing :: rest) (closing :: rest) (pieces.map ofPiece) := by
  induction h with
  | done => exact .stop hstop
  | @run run cs pieces text hne hplain hends _ ih =>
    have hbehind : ∀ c ∈ (cs ++ closing :: rest).head?, p c = false := by
      cases cs with
      | nil =>
        rintro c ⟨⟩
        exact hclosing
      | cons d cs => exact hends
    have hlength := List.length_pos_iff.mpr hne
    rw [List.append_assoc]
    refine .step (hrun hne hplain hbehind) ?_ ih
    simp only [List.length_append]
    omega
  | @token token cs pieces value text hhead hends _ _ ih =>
    have hescape : Reads escape scope (token ++ (cs ++ closing :: rest)) (cs ++ closing :: rest)
        (Text.ofChars token) := reads_upTo fun hleft ↦ hends rest scope hleft
    have hstep := htoken hhead hescape
    obtain ⟨more, rfl⟩ := List.head?_eq_some_iff.mp hhead
    rw [List.append_assoc]
    refine .step hstep ?_ ih
    simp only [List.length_append, List.length_cons]
    omega

/-- The pieces that a body falls into denote its text. -/
theorem FallsInto.decodePieces (h : FallsInto p closing cs pieces text) :
    Escape.decodePieces pieces = .ok text := by
  induction h with
  | done => rfl
  | run _ _ _ _ ih =>
    rw [Escape.decodePieces, ih]
    rfl
  | token _ _ hvalue _ ih =>
    rw [Escape.decodePieces, ih, hvalue]
    rfl

/-- A plain character in front of a body goes on with the first run, or is a run of its own. -/
theorem FallsInto.plain {c : Char} (hslash : p '\\' = false) (hc : p c = true)
    (h : FallsInto p closing cs pieces text) :
    ∃ pieces', FallsInto p closing (c :: cs) pieces' (CodePoint.ofChar c :: text) := by
  have hsingle : ∀ d ∈ [c], p d = true := by simpa using hc
  cases h with
  | done =>
    have hrun : FallsInto p closing [c] [.fragment (Text.ofChars [c])] [CodePoint.ofChar c] :=
      .run (by simp) hsingle (by simp) .done
    exact ⟨_, hrun⟩
  | @run run cs pieces text hne hplain hends hrest =>
    have hall : ∀ d ∈ c :: run, p d = true := List.forall_mem_cons.mpr ⟨hc, hplain⟩
    exact ⟨_, FallsInto.run (by simp) hall hends hrest⟩
  | @token token cs pieces value text hhead hends hvalue hrest =>
    have hstops : ∀ d ∈ (token ++ cs).head?, p d = false := by
      obtain ⟨more, rfl⟩ := List.head?_eq_some_iff.mp hhead
      rintro d ⟨⟩
      exact hslash
    have hrun := FallsInto.run (by simp) hsingle hstops (.token hhead hends hvalue hrest)
    exact ⟨_, hrun⟩

/-- A part in front of a body that it takes nothing of. -/
theorem FallsInto.cons (hslash : p '\\' = false) (hplain : ∀ c, part = .plain c → p c = true)
    (hescape : part.isEscape = true →
      part.IsSpelled quote ∧ ∀ c ∈ (cs ++ [closing]).head?, part.EndsBefore c)
    (h : FallsInto p closing cs pieces text) :
    ∃ pieces', FallsInto p closing (part.spelling ++ cs) pieces' (part.read ++ text) := by
  cases hpart : part.isEscape with
  | false =>
    cases part with
    | plain c => exact h.plain hslash (hplain c rfl)
    | _ => cases hpart
  | true =>
    obtain ⟨hspelled, hends⟩ := hescape hpart
    refine ⟨_, .token ?_ ?_ (decode_spelling hpart hspelled) h⟩
    · cases part <;> first | rfl | cases hpart
    · intro rest
      apply isEscapeBefore_spelling hpart hspelled
      cases cs <;> exact hends

/-! ### Bodies -/

theorem spell_cons : spell (part :: parts) = part.spelling ++ spell parts := List.flatMap_cons

/-- A body in which no escape sequence takes in the character behind it is read part by part. -/
theorem readText_of_takes
    (h : ∀ front part c rest, parts = front ++ part :: .plain c :: rest → part.takes c = false) :
    readText parts = parts.flatMap StringPart.read := by
  fun_induction readText parts with
  | case1 => rfl
  | case2 part c parts _ ih =>
    rw [h [] part c parts rfl, if_neg Bool.false_ne_true, ih]
    · exact List.flatMap_cons.symm
    · exact fun front taking d rest hparts ↦ h (part :: front) taking d rest (by rw [hparts]; rfl)
  | case3 part parts _ ih =>
    rw [ih]
    · exact List.flatMap_cons.symm
    · exact fun front taking d rest hparts ↦ h (part :: front) taking d rest (by rw [hparts]; rfl)

theorem takes_eq_false {c : Char} (hc : isSeparator c = false) : part.takes c = false := by
  unfold takes
  split <;> first | exact hc | rfl

/-- An escape sequence ends in front of a character that it does not take in. -/
theorem endsBefore_of_takes {c : Char} (hspelled : part.IsSpelled quote) (hfeed : c ≠ '\n')
    (htakes : part.takes c = false) (hzero : part = .zero → c.isDigit = false) :
    part.EndsBefore c := by
  cases part with
  | single d =>
    refine isTakenBehind_eq_false hfeed ?_
    rintro (rfl | rfl)
    · cases hspelled.2.2.2
    · exact htakes
  | zero => exact hzero rfl
  | continuation lineEnd =>
    rintro rfl
    exact isTakenBehind_eq_false hfeed fun _ ↦ htakes
  | _ => exact True.intro

/-- The marks that literals are put between, and the one in front of escape sequences. -/
def literalMarks : List Char := ['"', '\'', '\x60', '\\']

/-- An escape sequence ends in front of a literal mark. -/
theorem endsBefore_mark {c : Char} (hspelled : part.IsSpelled quote) (hc : c ∈ literalMarks) :
    part.EndsBefore c := by
  have hmarks : ∀ c ∈ literalMarks, c ≠ '\n' ∧ isSeparator c = false ∧ c.isDigit = false :=
    List.all_iff_forall_prop.mp (by decide)
  obtain ⟨hfeed, hseparator, hdigit⟩ := hmarks c hc
  exact endsBefore_of_takes hspelled hfeed (takes_eq_false hseparator) fun _ ↦ hdigit

/-- A body begins with a backslash or with a plain character. -/
theorem eq_of_mem_head?_spell {c : Char} (h : c ∈ (spell parts).head?) :
    c = '\\' ∨ ∃ rest, parts = .plain c :: rest := by
  cases parts with
  | nil => cases h
  | cons part parts =>
    cases part with
    | plain d =>
      obtain rfl : d = c := Option.some.inj h
      exact .inr ⟨parts, rfl⟩
    | _ => exact .inl (Option.some.inj h).symm

/-- An escape sequence ends in front of what follows if it ends in front of a plain character that
follows. -/
theorem endsBefore_spell (hspelled : part.IsSpelled quote) (hclosing : closing ∈ literalMarks)
    (hplain : ∀ c rest, parts = .plain c :: rest → part.EndsBefore c) :
    ∀ c ∈ (spell parts ++ [closing]).head?, part.EndsBefore c := by
  intro c hc
  rw [List.head?_append, Option.mem_def, Option.or_eq_some_iff] at hc
  rcases hc with hc | ⟨-, hc⟩
  · rcases eq_of_mem_head?_spell hc with rfl | ⟨rest, hparts⟩
    · exact endsBefore_mark hspelled (by decide)
    · exact hplain c rest hparts
  · obtain rfl : closing = c := Option.some.inj hc
    exact endsBefore_mark hspelled hclosing

/-- A part of a body ends in front of a plain character behind it, if it does not take it in. -/
theorem endsBefore_of_isBody (h : IsBody quote (part :: parts))
    (htakes : ∀ c rest, parts = .plain c :: rest → part.takes c = false) :
    ∀ c rest, parts = .plain c :: rest → part.EndsBefore c := by
  rintro c rest rfl
  obtain ⟨hspelled, hzero, hplain, -⟩ := h
  refine endsBefore_of_takes hspelled ?_ (htakes c rest rfl) fun hpart ↦ hzero hpart c rfl
  rintro rfl
  simp [IsSpelled, isPlain] at hplain

private theorem mem_literalMarks (hquote : quote = '"' ∨ quote = '\'') : quote ∈ literalMarks := by
  rcases hquote with rfl | rfl <;> decide

/-- A part in front of a body that it takes nothing of, between quotes. -/
private theorem FallsInto.cons_of_isBody (hquote : quote = '"' ∨ quote = '\'')
    (h : IsBody quote (part :: parts))
    (htakes : ∀ c rest, parts = .plain c :: rest → part.takes c = false)
    (hparts : FallsInto (isPlain quote) quote (spell parts) pieces text) :
    ∃ pieces', FallsInto (isPlain quote) quote (spell (part :: parts)) pieces'
      (part.read ++ text) := by
  refine hparts.cons (by simp [isPlain]) ?_ fun _ ↦ ⟨h.1, ?_⟩
  · rintro c rfl
    exact h.1
  · exact endsBefore_spell h.1 (mem_literalMarks hquote) (endsBefore_of_isBody h htakes)

/-- The body of a literal falls into pieces that denote what it is read as. -/
theorem exists_fallsInto (hquote : quote = '"' ∨ quote = '\'') (h : IsBody quote parts) :
    ∃ pieces, FallsInto (isPlain quote) quote (spell parts) pieces (readText parts) := by
  -- Along the reading: a plain character behind a part is in the token of the part if it is taken
  -- in, and in a run of plain characters otherwise.
  fun_induction readText parts with
  | case1 => exact ⟨[], .done⟩
  | case2 part c parts ih ihplain =>
    split
    · next htakes =>
      obtain ⟨pieces, hpieces⟩ := ih h.2.2.2.2
      have htoken : ∀ rest, IsEscapeBefore (part.spelling ++ [c]) (spell parts ++ quote :: rest) :=
        fun rest ↦ isEscapeBefore_takes htakes _
      have hhead : (part.spelling ++ [c]).head? = some '\\' := by
        cases part <;> first | rfl | cases htakes
      have hfalls := FallsInto.token hhead htoken (decode_takes htakes) hpieces
      rw [spell_cons, spell_cons]
      rw [List.append_assoc] at hfalls
      exact ⟨_, hfalls⟩
    · next htakes =>
      obtain ⟨pieces, hpieces⟩ := ihplain h.2.2
      refine hpieces.cons_of_isBody hquote h ?_
      rintro d rest ⟨⟩
      simpa using htakes
  | case3 part parts hnot ih =>
    obtain ⟨pieces, hpieces⟩ := ih h.2.2
    refine hpieces.cons_of_isBody hquote h ?_
    intro c rest hparts
    exact absurd hparts (hnot c rest)

/-! ### Literals -/

/-- The characters of a literal. -/
def literalOf (quote : Char) (parts : List StringPart) : List Char :=
  quote :: (spell parts ++ [quote])

/-- A literal is read as pieces that denote what its body is read as, wherever it stands. -/
theorem exists_reads_literalOf (hquote : quote = '"' ∨ quote = '\'') (h : IsBody quote parts) :
    ∃ pieces, Escape.decodePieces pieces = .ok (readText parts) ∧
      ∀ {scope : Scope} {left rest : List Char}, LeadsTo left (literalOf quote parts ++ rest) →
        Reads quoted scope left rest pieces := by
  obtain ⟨pieces, hpieces⟩ := exists_fallsInto hquote h
  have hslash : quote ≠ '\\' := by
    rcases hquote with rfl | rfl <;> decide
  refine ⟨pieces, hpieces.decodePieces, ?_⟩
  intro scope left rest hleft
  rw [literalOf, List.cons_append, List.append_assoc] at hleft
  have hrepeats : Repeats (piece quote) scope (spell parts ++ quote :: rest) (quote :: rest)
      (pieces.map id) :=
    hpieces.repeats (by simp [isPlain]) reads_piece_none reads_piece_run
      fun hhead ↦ reads_piece_token hslash (by simp [hhead])
  rw [List.map_id] at hrepeats
  exact reads_quoted_of_repeats hquote hrepeats hleft

end StoryCatalog.Script
