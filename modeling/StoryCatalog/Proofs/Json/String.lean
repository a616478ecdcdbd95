import StoryCatalog.Json.Printer
import StoryCatalog.Json.Reader

/-!
# Reading strings back

What is printed for a string reads back as the string: every escape stands for the code point that
it was written for, surrogates stand for themselves.
-/

namespace StoryCatalog

namespace Json

private theorem hexDigits_control : ∀ n < 0x20, (CodePoint.hexDigits 4 n).length = 4 ∧
    fourHex? (CodePoint.hexDigits 4 n) = some n := by decide

private theorem fourHex?_append {s t : Text} (h : s.length = 4) :
    fourHex? (s ++ t) = fourHex? s := by
  rw [fourHex?, fourHex?, ← h, List.take_left, List.take_length]

private theorem unitPoint_val (c : CodePoint) : unitPoint c.val = c := by
  simp [unitPoint, CodePoint.ofNat?, c.isLt]

variable {c : CodePoint} {rest : Text} (start offset : Nat)

private theorem readString_backslash {t : Text} {used : Nat} (read : Text)
    (h : readEscape start offset t = .ok (c, used)) :
    readString start offset (CodePoint.ofChar '\\' :: t) read =
      readString start (offset + 1 + used) (t.drop used) (c :: read) := by
  rw [readString, if_neg (by decide), if_pos (by rfl), h]

private theorem readEscape_control (hc : c.val < 0x20) (hrest : rest ≠ []) :
    readEscape start offset (CodePoint.ofChar 'u' :: (CodePoint.hexDigits 4 c.val ++ rest)) =
      .ok (c, 5) := by
  obtain ⟨hlength, hvalue⟩ := hexDigits_control c.val hc
  have hpos : 0 < rest.length := List.length_pos_iff.mpr hrest
  have hlow : ¬ 0xD800 ≤ c.val := by omega
  have hlong : ¬ (CodePoint.hexDigits 4 c.val ++ rest).length < 5 := by
    rw [List.length_append]
    omega
  rw [readEscape, fourHex?_append hlength, hvalue, if_neg hlong]
  simp [hlow, unitPoint_val]

private theorem readString_short {spelling : String} {d : CodePoint} (read : Text)
    (hspelling : Text.ofString spelling = [CodePoint.ofChar '\\', d])
    (h : ∀ rest, readEscape start offset (d :: rest) = .ok (c, 1)) :
    ∃ offset', readString start offset (spelling ++ rest) read =
      readString start offset' rest (c :: read) := by
  refine ⟨offset + 1 + 1, ?_⟩
  rw [hspelling]
  exact readString_backslash start offset read (h rest)

/-- The escape of a code point is read as the code point. -/
theorem readString_escaped (c : CodePoint) {rest : Text} (hrest : rest ≠ []) (read : Text) :
    ∃ offset', readString start offset (escaped c ++ rest) read =
      readString start offset' rest (c :: read) := by
  unfold escaped
  split
  · next hc =>
    obtain rfl : c = CodePoint.ofChar '"' := CodePoint.ext hc
    exact readString_short start offset read (d := CodePoint.ofChar '"') rfl fun _ ↦ rfl
  split
  · next hc =>
    obtain rfl : c = CodePoint.ofChar '\\' := CodePoint.ext hc
    exact readString_short start offset read (d := CodePoint.ofChar '\\') rfl fun _ ↦ rfl
  split
  · next hc =>
    obtain rfl : c = CodePoint.ofChar '\n' := CodePoint.ext hc
    exact readString_short start offset read (d := CodePoint.ofChar 'n') rfl fun _ ↦ rfl
  split
  · next hc =>
    obtain rfl : c = CodePoint.ofChar '\r' := CodePoint.ext hc
    exact readString_short start offset read (d := CodePoint.ofChar 'r') rfl fun _ ↦ rfl
  split
  · next hc =>
    obtain rfl : c = CodePoint.ofChar '\t' := CodePoint.ext hc
    exact readString_short start offset read (d := CodePoint.ofChar 't') rfl fun _ ↦ rfl
  split
  · next hc =>
    obtain rfl : c = CodePoint.ofChar '\x0C' := CodePoint.ext hc
    exact readString_short start offset read (d := CodePoint.ofChar 'f') rfl fun _ ↦ rfl
  split
  · next hc =>
    obtain rfl : c = CodePoint.ofChar '\x08' := CodePoint.ext hc
    exact readString_short start offset read (d := CodePoint.ofChar 'b') rfl fun _ ↦ rfl
  split
  · next hc =>
    refine ⟨offset + 1 + 5, ?_⟩
    have hread := readString_backslash start offset read
      (readEscape_control start offset hc hrest)
    have hdrop : (CodePoint.ofChar 'u' :: (CodePoint.hexDigits 4 c.val ++ rest)).drop 5 = rest := by
      rw [List.drop_succ_cons, List.drop_left' (hexDigits_control c.val hc).1]
    rw [hdrop] at hread
    exact hread
  · next hquote hbackslash _ _ _ _ _ hcontrol =>
    refine ⟨offset + 1, ?_⟩
    rw [List.singleton_append, readString, if_neg hquote, if_neg hbackslash, if_neg hcontrol]

/-- A string is read back from what is printed for it, behind its first quote. -/
theorem readString_flatMap (t rest read : Text) :
    ∃ end', readString start offset (t.flatMap escaped ++ CodePoint.ofChar '"' :: rest) read =
      .ok (read.reverse ++ t, ⟨end', rest⟩) := by
  induction t generalizing offset read with
  | nil =>
    refine ⟨offset + 1, ?_⟩
    rw [List.flatMap_nil, List.nil_append, readString, if_pos (by rfl), List.append_nil]
  | cons c t ih =>
    obtain ⟨offset', hescaped⟩ := readString_escaped start offset c
      (List.append_ne_nil_of_right_ne_nil (t.flatMap escaped)
        (List.cons_ne_nil (CodePoint.ofChar '"') rest)) read
    obtain ⟨end', hread⟩ := ih offset' (c :: read)
    refine ⟨end', ?_⟩
    rw [List.flatMap_cons, List.append_assoc, hescaped, hread, List.reverse_cons,
      List.append_assoc, List.singleton_append]

end Json

end StoryCatalog
