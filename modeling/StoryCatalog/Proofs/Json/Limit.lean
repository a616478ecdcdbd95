import StoryCatalog.Json.Reader

/-!
# The limit of digits

A reader goes through a text from its front to its end, so whatever it stops at stands in the text.
If a text is refused for the length of an integer, the digits of that integer stand in it, one
behind the other (`holdsRun_of_read`).
-/

namespace StoryCatalog.Json

variable {α β : Type} {s t : Text} {n : Nat}

/-- A text holds a run of `n` digits, which is more than an integer may have. -/
def HoldsRun (n : Nat) (t : Text) : Prop :=
  Number.digitLimit < n ∧ ∃ digits : Text, digits <:+: t ∧ digits.length = n ∧
    ∀ c ∈ digits, c.isDigit = true

theorem HoldsRun.of_suffix (h : HoldsRun n s) (hsuffix : s <:+ t) : HoldsRun n t := by
  obtain ⟨hlimit, digits, hdigits, hlength, hall⟩ := h
  exact ⟨hlimit, digits, hdigits.trans hsuffix.isInfix, hlength, hall⟩

/-- What a reader gives on a text: it leaves an end of the text, or stops at something in it. -/
def StaysIn (t : Text) : Except Stop (α × Cursor) → Prop
  | .ok (_, cursor) => cursor.rest <:+ t
  | .error (.tooManyDigits n) => HoldsRun n t
  | .error (.fault ..) => True

/-- What stays in the end of a text stays in the text. -/
theorem StaysIn.of_suffix {result : Except Stop (α × Cursor)} (h : StaysIn s result)
    (hsuffix : s <:+ t) : StaysIn t result := by
  match result with
  | .ok (_, cursor) => exact List.IsSuffix.trans h hsuffix
  | .error (.tooManyDigits n) => exact HoldsRun.of_suffix h hsuffix
  | .error (.fault ..) => trivial

theorem StaysIn.rest_suffix {result : Except Stop (α × Cursor)} {a : α} {cursor : Cursor}
    (h : StaysIn t result) (hok : result = .ok (a, cursor)) : cursor.rest <:+ t := by
  subst hok
  exact h

theorem StaysIn.holdsRun {result : Except Stop (α × Cursor)} (h : StaysIn t result)
    (hstop : result = .error (.tooManyDigits n)) : HoldsRun n t := by
  subst hstop
  exact h

/-- A stop is passed on by the readers that call the one that stops. -/
theorem StaysIn.stop {result : Except Stop (α × Cursor)} {stop : Stop} (h : StaysIn t result)
    (hstop : result = .error stop) : StaysIn t (.error stop : Except Stop (β × Cursor)) := by
  subst hstop
  cases stop <;> exact h

/-! ### Cursors -/

theorem Cursor.rest_advance_suffix (cursor : Cursor) (n : Nat) :
    (cursor.advance n).rest <:+ cursor.rest := List.drop_suffix n cursor.rest

theorem Cursor.rest_skipSpace_suffix (cursor : Cursor) : cursor.skipSpace.rest <:+ cursor.rest :=
  cursor.rest_advance_suffix _

/-- The cursor behind a mark and the space around it. -/
theorem Cursor.rest_mark_suffix (cursor : Cursor) :
    (cursor.skipSpace.advance 1).rest <:+ cursor.rest :=
  (cursor.skipSpace.rest_advance_suffix 1).trans cursor.rest_skipSpace_suffix

theorem Cursor.rest_mark_skipSpace_suffix (cursor : Cursor) :
    (cursor.skipSpace.advance 1).skipSpace.rest <:+ cursor.rest :=
  (cursor.skipSpace.advance 1).rest_skipSpace_suffix.trans cursor.rest_mark_suffix

/-! ### Strings -/

private theorem exists_fault_of_readEscape {start offset : Nat} {stop : Stop}
    (h : readEscape start offset t = .error stop) : ∃ fault place, stop = .fault fault place := by
  revert h
  fun_cases readEscape start offset t <;> intro h <;> cases h <;> exact ⟨_, _, rfl⟩

theorem staysIn_readString (start offset : Nat) (t read : Text) :
    StaysIn t (readString start offset t read) := by
  fun_induction readString start offset t read with
  | case1 => trivial
  | case2 => exact List.suffix_cons _ _
  | case3 offset read c rest _ _ stop h =>
    obtain ⟨fault, place, rfl⟩ := exists_fault_of_readEscape h
    trivial
  | case4 offset read c rest _ _ d used _ ih =>
    exact ih.of_suffix ((List.drop_suffix used rest).trans (List.suffix_cons c rest))
  | case5 => trivial
  | case6 offset read c rest _ _ _ ih => exact ih.of_suffix (List.suffix_cons c rest)

/-! ### Numbers and words -/

private theorem rest_takeMinus_suffix (t : Text) : (takeMinus t).2 <:+ t := by
  unfold takeMinus
  split
  · split
    · exact List.suffix_cons _ _
    · exact List.suffix_refl _
  · exact List.suffix_refl _

private theorem wholeDigits_prefix (t : Text) :
    wholeDigits t <+: t ∧ ∀ c ∈ wholeDigits t, c.isDigit = true := by
  unfold wholeDigits
  split
  · next c rest =>
    split
    · next hzero =>
      refine ⟨List.prefix_append [c] rest, List.forall_mem_singleton.mpr ?_⟩
      simp [CodePoint.isDigit, hzero]
    · exact ⟨List.takeWhile_prefix _, List.all_eq_true.mp List.all_takeWhile⟩
  · exact ⟨List.prefix_refl _, by simp⟩

private theorem staysIn_readNumber? {cursor : Cursor} {result : Except Stop (Number × Cursor)}
    (h : readNumber? cursor = some result) : StaysIn cursor.rest result := by
  revert h
  fun_cases readNumber? cursor with
  | case1 =>
    intro h
    cases h
  | case2 negative body hminus _ _ _ _ _ _ _ hlimit =>
    intro h
    cases h
    have hbody : body <:+ cursor.rest := by
      simpa only [hminus] using rest_takeMinus_suffix cursor.rest
    obtain ⟨hwhole, hdigits⟩ := wholeDigits_prefix body
    exact ⟨hlimit, _, hwhole.isInfix.trans hbody.isInfix, rfl, hdigits⟩
  | case3 | case4 =>
    intro h
    cases h
    exact cursor.rest_advance_suffix _

private theorem staysIn_readScalar (cursor : Cursor) :
    StaysIn cursor.rest (readScalar cursor) := by
  fun_cases readScalar cursor with
  | case1 | case2 | case3 | case4 | case5 | case6 => exact cursor.rest_advance_suffix _
  | case7 => trivial
  | case8 _ _ _ _ _ _ stop h => exact (staysIn_readNumber? h).stop rfl
  | case9 _ _ _ _ _ _ n after h => exact staysIn_readNumber? h

/-! ### Values -/

section Values

variable {depth : Nat}

private theorem staysIn_readValue
    (hmembers : ∀ cursor read, StaysIn cursor.rest (readMembers depth cursor read))
    (hitems : ∀ cursor read, StaysIn cursor.rest (readItems depth cursor read)) (cursor : Cursor) :
    StaysIn cursor.rest (readValue (depth + 1) cursor) := by
  have hinner := (cursor.advance 1).rest_skipSpace_suffix.trans (cursor.rest_advance_suffix 1)
  rw [readValue]
  split
  · trivial
  · next c rest hrest =>
    split
    · have hstring := staysIn_readString cursor.offset (cursor.offset + 1) rest []
      have hsuffix : rest <:+ cursor.rest := hrest ▸ List.suffix_cons c rest
      split
      · next stop h => exact (hstring.stop h).of_suffix hsuffix
      · next h => exact (hstring.rest_suffix h).trans hsuffix
    split
    · dsimp only
      split
      · exact (Cursor.rest_advance_suffix _ 1).trans hinner
      · exact (hmembers _ _).of_suffix hinner
    split
    · dsimp only
      split
      · exact (Cursor.rest_advance_suffix _ 1).trans hinner
      · exact (hitems _ _).of_suffix hinner
    · exact staysIn_readScalar cursor

private theorem staysIn_readMembers
    (hvalue : ∀ cursor, StaysIn cursor.rest (readValue depth cursor))
    (hmembers : ∀ cursor read, StaysIn cursor.rest (readMembers depth cursor read))
    (cursor : Cursor) (read : List (Text × Json)) :
    StaysIn cursor.rest (readMembers (depth + 1) cursor read) := by
  rw [readMembers]
  split
  · trivial
  have hstring := (staysIn_readString cursor.offset (cursor.offset + 1) (cursor.rest.drop 1)
    []).of_suffix (List.drop_suffix 1 cursor.rest)
  split
  · next stop h => exact hstring.stop h
  · next key behindKey h =>
    have hkey : behindKey.rest <:+ cursor.rest := hstring.rest_suffix h
    dsimp only
    split
    · trivial
    have hread := (hvalue _).of_suffix (behindKey.rest_mark_skipSpace_suffix.trans hkey)
    split
    · next stop h => exact hread.stop h
    · next value behind h =>
      have hbehind : behind.rest <:+ cursor.rest := hread.rest_suffix h
      split
      · exact behind.rest_mark_suffix.trans hbehind
      split
      · exact (hmembers _ _).of_suffix (behind.rest_mark_skipSpace_suffix.trans hbehind)
      · trivial

private theorem staysIn_readItems
    (hvalue : ∀ cursor, StaysIn cursor.rest (readValue depth cursor))
    (hitems : ∀ cursor read, StaysIn cursor.rest (readItems depth cursor read))
    (cursor : Cursor) (read : List Json) :
    StaysIn cursor.rest (readItems (depth + 1) cursor read) := by
  rw [readItems]
  have hread := hvalue cursor
  split
  · next stop h => exact hread.stop h
  · next value behind h =>
    have hbehind : behind.rest <:+ cursor.rest := hread.rest_suffix h
    dsimp only
    split
    · exact behind.rest_mark_suffix.trans hbehind
    split
    · exact (hitems _ _).of_suffix (behind.rest_mark_skipSpace_suffix.trans hbehind)
    · trivial

end Values

/-- The three readers stay in what is left of the text, at every depth. -/
theorem staysIn_readers (depth : Nat) :
    (∀ cursor, StaysIn cursor.rest (readValue depth cursor)) ∧
    (∀ cursor read, StaysIn cursor.rest (readMembers depth cursor read)) ∧
    ∀ cursor read, StaysIn cursor.rest (readItems depth cursor read) := by
  induction depth with
  | zero =>
    refine ⟨fun cursor ↦ ?_, fun cursor read ↦ ?_, fun cursor read ↦ ?_⟩
    · rw [readValue]
      trivial
    · rw [readMembers]
      trivial
    · rw [readItems]
      trivial
  | succ depth ih =>
    obtain ⟨hvalue, hmembers, hitems⟩ := ih
    exact ⟨staysIn_readValue hmembers hitems, staysIn_readMembers hvalue hmembers,
      staysIn_readItems hvalue hitems⟩

/-! ### Texts -/

/-- A value is read of a text that begins with no byte order mark. -/
theorem read_eq_ok_iff {value : Json} :
    read t = .ok value ↔ t.head?.map (·.val) ≠ some 0xFEFF ∧ readAll t = .ok value := by
  rw [read, readUnmarked]
  split
  · next hread =>
    split at hread
    · cases hread
    · next hmark => rw [hread, and_iff_right hmark, Except.ok.injEq, Except.ok.injEq]
  · next stop hread =>
    split at hread
    · next hmark => simp [hmark]
    · simp [hread]

/-- A text that is refused for the length of an integer holds its digits. -/
theorem holdsRun_of_read (h : read t = .error (.tooManyDigits n)) : HoldsRun n t := by
  have hvalue := (staysIn_readers (2 * t.length + 2)).1 (Cursor.skipSpace ⟨0, t⟩)
  rw [read] at h
  split at h
  · cases h
  · next stop hread =>
    cases stop with
    | fault cause offset => cases h
    | tooManyDigits count =>
      cases h
      rw [readUnmarked] at hread
      split at hread
      · cases hread
      rw [readAll] at hread
      split at hread
      · next hstop =>
        cases hread
        exact (hvalue.holdsRun hstop).of_suffix (Cursor.rest_skipSpace_suffix ⟨0, t⟩)
      · dsimp only at hread
        split at hread <;> cases hread

end StoryCatalog.Json
