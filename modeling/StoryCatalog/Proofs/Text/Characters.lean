import StoryCatalog.Proofs.Text.Utf8

/-!
# Characters of texts

Sources are read as characters, documents are written as code points. A text without surrogates is
the text of its characters.
-/

namespace StoryCatalog

/-- The character of a code point; surrogates have none of their own. -/
def CodePoint.char (c : CodePoint) : Char := Char.ofNat c.val

theorem CodePoint.isValidChar_val {c : CodePoint} (h : c.isSurrogate = false) :
    c.val.isValidChar := by
  have hlt := c.isLt
  simp only [CodePoint.isSurrogate, Bool.and_eq_false_iff, decide_eq_false_iff_not] at h
  unfold Nat.isValidChar
  omega

@[simp] theorem CodePoint.toNat_char {c : CodePoint} (h : c.isSurrogate = false) :
    c.char.toNat = c.val := by
  rw [CodePoint.char, Char.ofNat, dif_pos (CodePoint.isValidChar_val h)]
  rfl

@[simp] theorem CodePoint.char_ofChar (c : Char) : (CodePoint.ofChar c).char = c :=
  Char.ofNat_toNat c

theorem CodePoint.ofChar_inj {c d : Char} : CodePoint.ofChar c = CodePoint.ofChar d ↔ c = d :=
  ⟨fun h ↦ Char.toNat_inj.mp (congrArg CodePoint.val h), congrArg CodePoint.ofChar⟩

theorem CodePoint.isSurrogate_ofChar (c : Char) : (CodePoint.ofChar c).isSurrogate = false := by
  have hscalar := Text.isScalar_ofString (String.ofList [c])
  rw [Text.ofString, String.toList_ofList, List.map_singleton] at hscalar
  exact (Text.isScalar_cons.mp hscalar).1

theorem CodePoint.ofChar_char {c : CodePoint} (h : c.isSurrogate = false) :
    CodePoint.ofChar c.char = c := CodePoint.ext (CodePoint.toNat_char h)

namespace Text

/-- The characters of a text. -/
def chars (t : Text) : List Char := t.map CodePoint.char

@[simp] theorem chars_nil : chars [] = [] := rfl

@[simp] theorem chars_cons (c : CodePoint) (t : Text) : chars (c :: t) = c.char :: chars t := rfl

@[simp] theorem chars_append (s t : Text) : chars (s ++ t) = chars s ++ chars t := List.map_append

@[simp] theorem chars_concat_nil : chars (concat []) = [] := rfl

@[simp] theorem chars_concat_cons (t : Text) (rest : List Text) :
    chars (concat (t :: rest)) = chars t ++ chars (concat rest) := chars_append t rest.flatten

@[simp] theorem chars_ofString (s : String) : chars (ofString s) = s.toList := by
  simp [chars, ofString, Function.comp_def]

@[simp] theorem length_chars (t : Text) : (chars t).length = t.length := List.length_map _

theorem ofChars_chars {t : Text} (h : t.IsScalar) : ofChars (chars t) = t := by
  induction t with
  | nil => rfl
  | cons c t ih =>
    obtain ⟨hc, ht⟩ := isScalar_cons.mp h
    rw [chars_cons, ofChars, List.map_cons, CodePoint.ofChar_char hc]
    exact congrArg (c :: ·) (ih ht)

@[simp] theorem chars_ofChars (cs : List Char) : chars (ofChars cs) = cs := by
  simp [chars, ofChars, Function.comp_def]

theorem isScalar_ofChars (cs : List Char) : (ofChars cs).IsScalar := by
  intro c hc
  obtain ⟨d, -, rfl⟩ := List.mem_map.mp hc
  exact CodePoint.isSurrogate_ofChar d

theorem toChars?_of_isScalar {t : Text} (h : t.IsScalar) : toChars? t = some (chars t) := by
  have hchars := toChars?_ofChars (chars t)
  rwa [ofChars_chars h] at hchars

end Text

end StoryCatalog
