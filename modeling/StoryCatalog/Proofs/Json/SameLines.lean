import StoryCatalog.Json.Reader
import StoryCatalog.Text.Utf8

/-!
# Texts with the same lines

Two texts have the same lines if they differ in their line breaks alone (`Json.SameLines`), and not
in whether there are any at a place. Unifying line breaks keeps the lines of a text
(`Json.SameLines.unifyLineBreaks`), and what has no line breaks in it, as the strings of a document,
is read in the same way in both (`Json.readString_of_sameLines`).
-/

namespace StoryCatalog.Json

/-- Whether a code point is a line feed or a carriage return. -/
def IsLineBreak (c : CodePoint) : Prop := c.val = 0x0A ∨ c.val = 0x0D

instance : DecidablePred IsLineBreak := fun _ ↦ inferInstanceAs (Decidable (_ ∨ _))

/-- No other code point, as the marks of a document are, is a line break. -/
theorem IsLineBreak.val_ne {c : CodePoint} {n : Nat} (h : IsLineBreak c)
    (hn : n ∉ [0x0A, 0x0D]) : c.val ≠ n := by
  rintro rfl
  rcases h with hc | hc <;> simp [hc] at hn

/-- Two texts have the same lines: they differ in how many line breaks stand at a place, and which,
but not in whether any do. -/
inductive SameLines : Text → Text → Prop where
  | nil : SameLines [] []
  | cons (c : CodePoint) {s t : Text} : SameLines s t → SameLines (c :: s) (c :: t)
  | breaks {a b s t : Text} : a ≠ [] → b ≠ [] → (∀ c ∈ a, IsLineBreak c) →
    (∀ c ∈ b, IsLineBreak c) → SameLines s t → SameLines (a ++ s) (b ++ t)

namespace SameLines

variable {s t : Text} {c : CodePoint} {p : CodePoint → Bool}

theorem symm (h : SameLines s t) : SameLines t s := by
  induction h with
  | nil => exact .nil
  | cons c _ ih => exact .cons c ih
  | breaks ha hb hbreaks hbreaks' _ ih => exact .breaks hb ha hbreaks' hbreaks ih

/-- One line break for one. -/
private theorem ofBreak {d : CodePoint} (hc : IsLineBreak c) (hd : IsLineBreak d)
    (h : SameLines s t) : SameLines (c :: s) (d :: t) :=
  .breaks (a := [c]) (b := [d]) (List.cons_ne_nil c []) (List.cons_ne_nil d [])
    (List.forall_mem_singleton.mpr hc) (List.forall_mem_singleton.mpr hd) h

/-- Unifying line breaks keeps the lines of a text. -/
theorem unifyLineBreaks (t : Text) : SameLines t (Utf8.unifyLineBreaks t) := by
  have hreturn : IsLineBreak (.ofChar '\r') := .inr rfl
  have hfeed : IsLineBreak (.ofChar '\n') := .inl rfl
  -- the second part is about what stands behind a carriage return
  suffices h : SameLines t (Utf8.unifyAfter false t) ∧
      SameLines (.ofChar '\r' :: t) (.ofChar '\n' :: Utf8.unifyAfter true t) from h.1
  induction t with
  | nil => exact ⟨.nil, ofBreak hreturn hfeed .nil⟩
  | cons c t ih =>
    obtain ⟨ih, ihReturn⟩ := ih
    rw [Utf8.unifyAfter, Utf8.unifyAfter]
    by_cases hc : c.val = 0x0D
    · obtain rfl : c = .ofChar '\r' := CodePoint.ext hc
      rw [if_pos hc, if_pos hc]
      exact ⟨ihReturn, ofBreak hreturn hfeed ihReturn⟩
    · rw [if_neg hc, if_neg hc, if_neg (by simp)]
      refine ⟨.cons c ih, ?_⟩
      split
      · next hafter =>
        have hline : IsLineBreak c := .inl (by simpa using hafter)
        exact .breaks (a := [.ofChar '\r', c]) (b := [.ofChar '\n']) (by simp) (by simp)
          (by simpa using ⟨hreturn, hline⟩) (by simpa using hfeed) ih
      · exact ofBreak hreturn hfeed (.cons c ih)

/-- Both texts are at their end, or before the same code point, or before line breaks. -/
theorem head_cases (h : SameLines s t) : (s = [] ∧ t = []) ∨
    (∃ c s' t', s = c :: s' ∧ t = c :: t' ∧ SameLines s' t') ∨
    ∃ c s' d t', s = c :: s' ∧ t = d :: t' ∧ IsLineBreak c ∧ IsLineBreak d := by
  cases h with
  | nil => exact .inl ⟨rfl, rfl⟩
  | cons c h => exact .inr (.inl ⟨c, _, _, rfl, rfl, h⟩)
  | @breaks a b s t ha hb hbreaks hbreaks' _ =>
    obtain ⟨c, a, rfl⟩ := List.exists_cons_of_ne_nil ha
    obtain ⟨d, b, rfl⟩ := List.exists_cons_of_ne_nil hb
    exact .inr (.inr ⟨c, a ++ s, d, b ++ t, rfl, rfl, hbreaks c List.mem_cons_self,
      hbreaks' d List.mem_cons_self⟩)

/-- A code point that is no line break stands at the beginning of both texts. -/
theorem of_cons (h : SameLines (c :: s) t) (hc : ¬ IsLineBreak c) :
    ∃ t', t = c :: t' ∧ SameLines s t' := by
  rcases h.head_cases with ⟨hnil, -⟩ | ⟨d, s', t', hs, rfl, hrest⟩ | ⟨d, s', e, t', hs, -, hd, -⟩
  · cases hnil
  · cases hs
    exact ⟨t', rfl, hrest⟩
  · cases hs
    exact absurd hd hc

theorem eq_nil (h : SameLines [] t) : t = [] := by
  rcases h.head_cases with ⟨-, ht⟩ | ⟨_, _, _, hs, -⟩ | ⟨_, _, _, _, hs, -⟩
  · exact ht
  · cases hs
  · cases hs

theorem eq_nil_iff (h : SameLines s t) : s = [] ↔ t = [] :=
  ⟨fun hs ↦ (hs ▸ h).eq_nil, fun ht ↦ (ht ▸ h.symm).eq_nil⟩

/-- What is without line breaks at the beginning of one text is so in both. -/
theorem of_append {w : Text} (h : SameLines (w ++ s) t) (hw : ∀ c ∈ w, ¬ IsLineBreak c) :
    ∃ t', t = w ++ t' ∧ SameLines s t' := by
  induction w generalizing t with
  | nil => exact ⟨t, rfl, h⟩
  | cons c w ih =>
    obtain ⟨hc, hw⟩ := List.forall_mem_cons.mp hw
    obtain ⟨t', rfl, hrest⟩ := h.of_cons hc
    obtain ⟨t'', rfl, hbehind⟩ := ih hrest hw
    exact ⟨t'', rfl, hbehind⟩

/-- Behind code points that go on over line breaks both texts have the same lines again. -/
theorem dropWhile (h : SameLines s t) (hp : ∀ c, IsLineBreak c → p c = true) :
    SameLines (s.dropWhile p) (t.dropWhile p) := by
  induction h with
  | nil => exact .nil
  | cons c h ih =>
    by_cases hc : p c = true
    · rwa [List.dropWhile_cons_of_pos hc, List.dropWhile_cons_of_pos hc]
    · rw [List.dropWhile_cons_of_neg hc, List.dropWhile_cons_of_neg hc]
      exact .cons c h
  | breaks _ _ hbreaks hbreaks' _ ih =>
    rwa [List.dropWhile_append_of_pos fun c hc ↦ hp c (hbreaks c hc),
      List.dropWhile_append_of_pos fun c hc ↦ hp c (hbreaks' c hc)]

/-- Code points that end at line breaks are the same in both texts. -/
theorem takeWhile (h : SameLines s t) (hp : ∀ c, IsLineBreak c → p c = false) :
    s.takeWhile p = t.takeWhile p ∧
      SameLines (s.drop (s.takeWhile p).length) (t.drop (t.takeWhile p).length) := by
  induction s generalizing t with
  | nil =>
    rw [h.eq_nil]
    exact ⟨rfl, .nil⟩
  | cons c s ih =>
    by_cases hc : p c = true
    · obtain ⟨t, rfl, hrest⟩ := h.of_cons fun hbreak ↦ by simp [hp c hbreak] at hc
      obtain ⟨heq, hbehind⟩ := ih hrest
      rw [List.takeWhile_cons_of_pos hc, List.takeWhile_cons_of_pos hc, heq]
      exact ⟨rfl, heq ▸ hbehind⟩
    · have hstop : t.takeWhile p = [] := by
        rcases h.head_cases with ⟨hnil, -⟩ | ⟨d, s', t', hs, rfl, -⟩ | ⟨-, -, d, t', -, rfl, -, hd⟩
        · cases hnil
        · cases hs
          exact List.takeWhile_cons_of_neg hc
        · exact List.takeWhile_cons_of_neg (by simp [hp d hd])
      rw [List.takeWhile_cons_of_neg hc, hstop]
      exact ⟨rfl, h⟩

/-- A beginning without line breaks is one of both texts, and the same lines stand behind it. -/
theorem of_prefix {w : Text} (h : SameLines s t) (hw : ∀ c ∈ w, ¬ IsLineBreak c)
    (hbegin : w <+: s) : w <+: t ∧ SameLines (s.drop w.length) (t.drop w.length) := by
  obtain ⟨s', rfl⟩ := hbegin
  obtain ⟨t', rfl, hrest⟩ := h.of_append hw
  refine ⟨List.prefix_append w t', ?_⟩
  rwa [List.drop_left, List.drop_left]

theorem startsWith_eq {w : Text} (h : SameLines s t) (hw : ∀ c ∈ w, ¬ IsLineBreak c) :
    Text.startsWith s w = Text.startsWith t w := by
  rw [Bool.eq_iff_iff, Text.startsWith, Text.startsWith, List.isPrefixOf_iff_prefix,
    List.isPrefixOf_iff_prefix]
  exact ⟨fun hs ↦ (h.of_prefix hw hs).1, fun ht ↦ (h.symm.of_prefix hw ht).1⟩

/-! ### Cursors -/

variable {cursor cursor' : Cursor}

theorem skipSpace (h : SameLines cursor.rest cursor'.rest) :
    SameLines cursor.skipSpace.rest cursor'.skipSpace.rest := by
  have hrest : ∀ cursor : Cursor, cursor.skipSpace.rest = cursor.rest.dropWhile Cursor.isSpace := by
    intro cursor
    have hsplit := List.takeWhile_append_dropWhile (p := Cursor.isSpace) (l := cursor.rest)
    have hdrop := @List.drop_left _ (cursor.rest.takeWhile Cursor.isSpace)
      (cursor.rest.dropWhile Cursor.isSpace)
    rwa [hsplit] at hdrop
  rw [hrest, hrest]
  refine h.dropWhile fun c hc ↦ ?_
  rcases hc with hc | hc <;> simp [Cursor.isSpace, hc]

theorem sees_eq (h : SameLines cursor.rest cursor'.rest) (word : String)
    (hword : ∀ c ∈ Text.ofString word, ¬ IsLineBreak c) : cursor.sees word = cursor'.sees word :=
  h.startsWith_eq hword

theorem advance_of_sees (h : SameLines cursor.rest cursor'.rest) (word : String)
    (hword : ∀ c ∈ Text.ofString word, ¬ IsLineBreak c) (hsees : cursor.sees word = true) :
    SameLines (cursor.advance (Text.ofString word).length).rest
      (cursor'.advance (Text.ofString word).length).rest :=
  (h.of_prefix hword (List.isPrefixOf_iff_prefix.mp hsees)).2

end SameLines

/-! ### Strings -/

section Strings

variable {s t : Text} {start offset start' offset' used n : Nat} {c d : CodePoint}

private theorem not_isLineBreak_of_hexValue? (h : (CodePoint.hexValue? c).isSome = true) :
    ¬ IsLineBreak c := by
  rintro (hc | hc) <;> simp [CodePoint.hexValue?, CodePoint.isDigit, hc] at h

/-- Four hexadecimal digits stand at the beginning of both texts or of neither. -/
private theorem fourHex?_of_sameLines (h : SameLines s t) (hs : fourHex? s = some n) :
    fourHex? t = some n ∧ SameLines (s.drop 4) (t.drop 4) := by
  have hcount : ((s.take 4).filterMap CodePoint.hexValue?).length = 4 := by
    rw [fourHex?] at hs
    split at hs
    · assumption
    · cases hs
  have hle := List.length_filterMap_le CodePoint.hexValue? (s.take 4)
  have hlength : (s.take 4).length = 4 := by
    have := List.length_take_le 4 s
    omega
  have hall : ∀ c ∈ s.take 4, (CodePoint.hexValue? c).isSome = true :=
    List.filterMap_length_eq_length.mp (hcount.trans hlength.symm)
  obtain ⟨hbegin, hbehind⟩ := h.of_prefix (w := s.take 4)
    (fun c hc ↦ not_isLineBreak_of_hexValue? (hall c hc)) (List.take_prefix 4 s)
  rw [hlength] at hbehind
  have htake : t.take 4 = s.take 4 := by
    have := List.prefix_iff_eq_take.mp hbegin
    rw [hlength] at this
    exact this.symm
  exact ⟨by rw [← hs, fourHex?, fourHex?, htake], hbehind⟩

/-- An escape of one code point is read without regard to what stands behind it. -/
private theorem readEscape_short {rest : Text} (hc : c.val ≠ 0x75)
    (h : readEscape start offset (c :: rest) = .ok (d, used)) :
    used = 1 ∧ ¬ IsLineBreak c ∧
      ∀ rest', readEscape start' offset' (c :: rest') = .ok (d, 1) := by
  have hbreak : ¬ IsLineBreak c := by
    rintro (hline | hline) <;> simp [readEscape, hline] at h
  simp only [readEscape, hc, ne_eq, not_false_eq_true, if_true] at h ⊢
  repeat' split at h
  all_goals cases h
  all_goals exact ⟨rfl, hbreak, fun rest' ↦ by simp_all⟩

/-- What an escape of four digits comes to together with the text behind it. -/
private def readUnit (offset high : Nat) (after : Text) : Except Stop (CodePoint × Nat) :=
  if (0xD800 ≤ high && high < 0xDC00) && 6 < after.length && Text.startsWith after "\\u" then
    match fourHex? (after.drop 2) with
    | none => .error (.fault .unicodeEscape (offset + 7))
    | some low =>
      if 0xDC00 ≤ low && low < 0xE000 then .ok (unitPoint (joinSurrogates high low), 11)
      else .ok (unitPoint high, 5)
  else .ok (unitPoint high, 5)

private theorem readEscape_unicode {rest : Text} (hc : c.val = 0x75) :
    readEscape start offset (c :: rest) =
      if rest.length < 5 then .error (.fault .unicodeEscape (offset + 1))
      else
        match fourHex? rest with
        | none => .error (.fault .unicodeEscape (offset + 1))
        | some high => readUnit offset high (rest.drop 4) := by
  have hshort : ∀ n ≠ 0x75, c.val ≠ n := fun n hn ↦ hc ▸ hn.symm
  rw [readEscape, if_neg (by simp [hshort]), if_neg (hshort _ (by decide)),
    if_neg (hshort _ (by decide)), if_neg (hshort _ (by decide)), if_neg (hshort _ (by decide)),
    if_neg (hshort _ (by decide)), if_neg (by simp [hc])]
  rfl

/-- What is shorter than an escape of a surrogate and the closing quote does not go on as a string
if it begins like one. -/
private theorem not_short_of_readString {read value : Text} {cursor : Cursor}
    (h : readString start offset t read = .ok (value, cursor))
    (hstart : Text.startsWith t "\\u" = true) : 6 < t.length := by
  obtain ⟨rest, rfl⟩ := List.isPrefixOf_iff_prefix.mp hstart
  rcases Nat.lt_or_ge rest.length 5 with hshort | hlong
  · have hcons : Text.ofString "\\u" ++ rest =
        CodePoint.ofChar '\\' :: CodePoint.ofChar 'u' :: rest := rfl
    rw [hcons, readString, if_neg (by decide), if_pos (by rfl), readEscape_unicode (by rfl),
      if_pos hshort] at h
    cases h
  · have hlength : (Text.ofString "\\u").length = 2 := rfl
    rw [List.length_append, hlength]
    omega

/-- The text behind four hexadecimal digits begins with another escape in both texts, and with as
many code points as it needs, or in neither. -/
private theorem pair_of_sameLines (h : SameLines s t) (hs : Text.startsWith s "\\u" = true)
    (hlong : 6 < s.length) {low : Nat} (hlow : fourHex? (s.drop 2) = some low) :
    Text.startsWith t "\\u" = true ∧ 6 < t.length ∧ fourHex? (t.drop 2) = some low ∧
      SameLines (s.drop 6) (t.drop 6) := by
  have hword : ∀ c ∈ Text.ofString "\\u", ¬ IsLineBreak c := by decide
  have hdrop : SameLines (s.drop 2) (t.drop 2) :=
    (h.of_prefix hword (List.isPrefixOf_iff_prefix.mp hs)).2
  obtain ⟨hlow', hbehind⟩ := fourHex?_of_sameLines hdrop hlow
  rw [List.drop_drop, List.drop_drop] at hbehind
  refine ⟨h.startsWith_eq hword ▸ hs, ?_, hlow', hbehind⟩
  have hne : s.drop 6 ≠ [] := List.ne_nil_of_length_pos (by rw [List.length_drop]; omega)
  have hne' : t.drop 6 ≠ [] := fun hnil ↦ hne (hbehind.eq_nil_iff.mpr hnil)
  have hpos := List.length_pos_iff.mpr hne'
  rw [List.length_drop] at hpos
  omega

private theorem readUnit_of_sameLines (offset' : Nat) {high : Nat} (h : SameLines s t)
    (hread : readUnit offset high s = .ok (d, used))
    (hbehind : used = 5 → Text.startsWith s "\\u" = true → 6 < s.length) :
    5 ≤ used ∧ readUnit offset' high t = .ok (d, used) ∧
      SameLines (s.drop (used - 5)) (t.drop (used - 5)) := by
  unfold readUnit at hread ⊢
  split at hread
  · next hpair =>
    simp only [Bool.and_eq_true, decide_eq_true_iff] at hpair
    obtain ⟨⟨hrange, hlong⟩, hstart⟩ := hpair
    cases hlow : fourHex? (s.drop 2) with
    | none =>
      rw [hlow] at hread
      cases hread
    | some low =>
      obtain ⟨hstart', hlong', hlow', hpairs⟩ := pair_of_sameLines h hstart hlong hlow
      have hpair' : ((0xD800 ≤ high && high < 0xDC00) && 6 < t.length &&
          Text.startsWith t "\\u") = true := by
        simp only [Bool.and_eq_true, decide_eq_true_iff]
        exact ⟨⟨hrange, hlong'⟩, hstart'⟩
      rw [hlow] at hread
      rw [if_pos hpair', hlow']
      dsimp only at hread ⊢
      split at hread <;> simp only [Except.ok.injEq, Prod.mk.injEq] at hread <;>
        obtain ⟨rfl, rfl⟩ := hread
      · next hlowRange => exact ⟨by decide, if_pos hlowRange, hpairs⟩
      · next hlowRange => exact ⟨by decide, if_neg hlowRange, h⟩
  · next hnot =>
    cases hread
    refine ⟨by decide, if_neg fun hpair ↦ hnot ?_, h⟩
    simp only [Bool.and_eq_true, decide_eq_true_iff] at hpair ⊢
    have hstart : Text.startsWith s "\\u" = true :=
      (h.startsWith_eq (w := "\\u") (by decide)).trans hpair.2
    exact ⟨⟨hpair.1.1, hbehind rfl hstart⟩, hstart⟩

/-- An escape is read in the same way in two texts with the same lines, if what stands behind it in
the first can be the rest of a string. -/
private theorem readEscape_of_sameLines (start' offset' : Nat) (h : SameLines s t)
    (hread : readEscape start offset s = .ok (d, used))
    (hbehind : Text.startsWith (s.drop used) "\\u" = true → 6 < (s.drop used).length) :
    readEscape start' offset' t = .ok (d, used) ∧ SameLines (s.drop used) (t.drop used) := by
  cases s with
  | nil => cases hread
  | cons c s =>
    by_cases hc : c.val = 0x75
    · obtain ⟨t, rfl, hrest⟩ := h.of_cons fun hline ↦ hline.val_ne (by decide) hc
      rw [readEscape_unicode hc] at hread ⊢
      split at hread
      · cases hread
      next hlong =>
      cases hhigh : fourHex? s with
      | none =>
        rw [hhigh] at hread
        cases hread
      | some high =>
        obtain ⟨hhigh', hdigits⟩ := fourHex?_of_sameLines hrest hhigh
        have hlong' : ¬ t.length < 5 := fun hshort ↦ hlong <| by
          have hnil := hdigits.eq_nil_iff.mpr (List.drop_eq_nil_of_le (Nat.le_of_lt_succ hshort))
          exact Nat.lt_succ_of_le (List.drop_eq_nil_iff.mp hnil)
        rw [hhigh] at hread
        rw [if_neg hlong', hhigh']
        dsimp only at hread ⊢
        obtain ⟨hfive, hread', hrest'⟩ := readUnit_of_sameLines offset' hdigits hread
          fun hused hstart ↦ by subst hused; exact hbehind hstart
        obtain ⟨more, rfl⟩ := Nat.exists_eq_add_of_le hfive
        have hused : 5 + more = 4 + more + 1 := by omega
        rw [Nat.add_sub_cancel_left, List.drop_drop, List.drop_drop] at hrest'
        rw [hused, List.drop_succ_cons, List.drop_succ_cons]
        exact ⟨hused ▸ hread', hrest'⟩
    · obtain ⟨rfl, hbreak, hread'⟩ := readEscape_short hc hread
      obtain ⟨t, rfl, hrest⟩ := h.of_cons hbreak
      exact ⟨hread' t, hrest⟩

/-- A string is read in the same way in two texts with the same lines. -/
theorem readString_of_sameLines (start' offset' : Nat) {read value : Text} {cursor : Cursor}
    (h : SameLines s t)
    (hread : readString start offset s read = .ok (value, cursor)) :
    ∃ cursor', readString start' offset' t read = .ok (value, cursor') ∧
      SameLines cursor.rest cursor'.rest := by
  fun_induction readString start offset s read generalizing t offset' with
  | case1 => cases hread
  | case2 offset read c rest hc =>
    cases hread
    obtain ⟨t, rfl, hrest⟩ := h.of_cons fun hline ↦ hline.val_ne (by decide) hc
    exact ⟨⟨offset' + 1, t⟩, by rw [readString, if_pos hc], hrest⟩
  | case3 => cases hread
  | case4 offset read c rest hnot hc d used hescape ih =>
    obtain ⟨t, rfl, hrest⟩ := h.of_cons fun hline ↦ hline.val_ne (by decide) hc
    obtain ⟨hescape', hbehind⟩ := readEscape_of_sameLines start' offset' hrest hescape
      (not_short_of_readString hread)
    obtain ⟨cursor', hread', hsame⟩ := ih _ hbehind hread
    refine ⟨cursor', ?_, hsame⟩
    rw [readString, if_neg hnot, if_pos hc, hescape']
    exact hread'
  | case5 => cases hread
  | case6 offset read c rest hquote hescape hcontrol ih =>
    obtain ⟨t, rfl, hrest⟩ := h.of_cons (by rintro (hline | hline) <;> omega)
    obtain ⟨cursor', hread', hsame⟩ := ih _ hrest hread
    refine ⟨cursor', ?_, hsame⟩
    rw [readString, if_neg hquote, if_neg hescape, if_neg hcontrol]
    exact hread'

end Strings

end StoryCatalog.Json
