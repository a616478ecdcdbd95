import StoryCatalog.Proofs.Json.Limit
import StoryCatalog.Proofs.Json.SameLines

/-!
# Documents whatever their line breaks

Line breaks stand between the tokens of a document and nowhere else, so two texts that differ in
them alone denote the same value (`Json.SameLines.read_eq_ok`). In particular a file is read as the
same document whether its line breaks are unified or not (`Json.read_unifyLineBreaks`). The depth
that bounds the reader of one text need not do for the other, so the readers are compared at any
depth that is enough for what is left of the second text.
-/

namespace StoryCatalog.Json

/-! ### Numbers and words -/

section Numbers

variable {s t : Text}

private theorem takeMinus_of_sameLines (h : SameLines s t) :
    (takeMinus s).1 = (takeMinus t).1 ∧ SameLines (takeMinus s).2 (takeMinus t).2 := by
  rcases h.head_cases with ⟨rfl, rfl⟩ | ⟨c, s, t, rfl, rfl, hrest⟩ | ⟨c, s, d, t, rfl, rfl, hc, hd⟩
  · exact ⟨rfl, .nil⟩
  · simp only [takeMinus]
    split
    · exact ⟨rfl, hrest⟩
    · exact ⟨rfl, h⟩
  · have hcminus : c.val ≠ 0x2D := hc.val_ne (by decide)
    have hdminus : d.val ≠ 0x2D := hd.val_ne (by decide)
    simp only [takeMinus, if_neg hcminus, if_neg hdminus]
    exact ⟨trivial, h⟩

private theorem not_isDigit {c : CodePoint} (hc : IsLineBreak c) : c.isDigit = false := by
  rcases hc with hc | hc <;> simp [CodePoint.isDigit, hc]

private theorem wholeDigits_of_sameLines (h : SameLines s t) :
    wholeDigits s = wholeDigits t ∧
      SameLines (s.drop (wholeDigits s).length) (t.drop (wholeDigits t).length) := by
  have hdigits := h.takeWhile (p := CodePoint.isDigit) fun _ ↦ not_isDigit
  rcases h.head_cases with ⟨rfl, rfl⟩ | ⟨c, s, t, rfl, rfl, hrest⟩ | ⟨c, s, d, t, rfl, rfl, hc, hd⟩
  · exact ⟨rfl, .nil⟩
  · simp only [wholeDigits]
    split
    · exact ⟨rfl, hrest⟩
    · exact hdigits
  · have hczero : c.val ≠ 0x30 := hc.val_ne (by decide)
    have hdzero : d.val ≠ 0x30 := hd.val_ne (by decide)
    simp only [wholeDigits, if_neg hczero, if_neg hdzero]
    exact hdigits

/-- A text without the fraction at its beginning. -/
private def afterPart (t : Text) : Text :=
  if (partDigits t).isEmpty then t else t.drop ((partDigits t).length + 1)

private theorem afterPart_eq_drop (t : Text) :
    afterPart t = t.drop (if (partDigits t).isEmpty then 0 else (partDigits t).length + 1) := by
  unfold afterPart
  split <;> rfl

private theorem partDigits_of_sameLines (h : SameLines s t) :
    partDigits s = partDigits t ∧ SameLines (afterPart s) (afterPart t) := by
  unfold afterPart
  rcases h.head_cases with ⟨rfl, rfl⟩ | ⟨c, s, t, rfl, rfl, hrest⟩ | ⟨c, s, d, t, rfl, rfl, hc, hd⟩
  · exact ⟨rfl, .nil⟩
  · obtain ⟨heq, hbehind⟩ := hrest.takeWhile (p := CodePoint.isDigit) fun _ ↦ not_isDigit
    simp only [partDigits]
    by_cases hpoint : c.val = 0x2E
    · simp only [if_pos hpoint, heq]
      refine ⟨trivial, ?_⟩
      split
      · exact h
      · exact heq ▸ hbehind
    · simp only [if_neg hpoint]
      exact ⟨trivial, h⟩
  · have hcpoint : c.val ≠ 0x2E := hc.val_ne (by decide)
    have hdpoint : d.val ≠ 0x2E := hd.val_ne (by decide)
    simp only [partDigits, if_neg hcpoint, if_neg hdpoint]
    exact ⟨trivial, h⟩

/-- Whether a code point is the sign of an exponent. -/
private def isSign (c : CodePoint) : Bool := c.val == 0x2B || c.val == 0x2D

/-- The sign at the beginning of a text. -/
private def signText (t : Text) : Text := (t.take 1).takeWhile isSign

/-- The digits behind a sign at the beginning of a text. -/
private def signedDigits (t : Text) : Text :=
  (t.drop (signText t).length).takeWhile CodePoint.isDigit

private theorem powerText_cons (c : CodePoint) (t : Text) : powerText (c :: t) =
    if c.val = 0x65 || c.val = 0x45 then
      if (signedDigits t).isEmpty then [] else c :: (signText t ++ signedDigits t)
    else [] := rfl

private theorem signText_of_sameLines (h : SameLines s t) : signText s = signText t ∧
    SameLines (s.drop (signText s).length) (t.drop (signText t).length) := by
  have hbreak : ∀ c, IsLineBreak c → isSign c = false := by
    rintro c (hc | hc) <;> simp [isSign, hc]
  unfold signText
  rcases h.head_cases with ⟨rfl, rfl⟩ | ⟨c, s, t, rfl, rfl, hrest⟩ | ⟨c, s, d, t, rfl, rfl, hc, hd⟩
  · exact ⟨rfl, .nil⟩
  · by_cases hsign : isSign c = true
    · simpa [hsign] using hrest
    · simpa [hsign] using h
  · simpa [hbreak c hc, hbreak d hd] using h

private theorem signedDigits_of_sameLines (h : SameLines s t) : signedDigits s = signedDigits t ∧
    SameLines (s.drop (signText s ++ signedDigits s).length)
      (t.drop (signText t ++ signedDigits t).length) := by
  rw [List.length_append, List.length_append, ← List.drop_drop, ← List.drop_drop]
  exact (signText_of_sameLines h).2.takeWhile fun _ ↦ not_isDigit

private theorem powerText_of_sameLines (h : SameLines s t) :
    powerText s = powerText t ∧
      SameLines (s.drop (powerText s).length) (t.drop (powerText t).length) := by
  rcases h.head_cases with ⟨rfl, rfl⟩ | ⟨c, s, t, rfl, rfl, hrest⟩ | ⟨c, s, d, t, rfl, rfl, hc, hd⟩
  · exact ⟨rfl, .nil⟩
  · obtain ⟨hsign, -⟩ := signText_of_sameLines hrest
    obtain ⟨hdigits, hbehind⟩ := signedDigits_of_sameLines hrest
    rw [← hsign, ← hdigits] at hbehind
    rw [powerText_cons, powerText_cons, ← hsign, ← hdigits]
    refine ⟨rfl, ?_⟩
    split
    · split
      · exact h
      · exact hbehind
    · exact h
  · have hmark : ∀ {c}, IsLineBreak c → c.val ≠ 0x65 ∧ c.val ≠ 0x45 :=
      fun hc ↦ ⟨hc.val_ne (by decide), hc.val_ne (by decide)⟩
    simpa [powerText, hmark hc, hmark hd] using h

/-- The parts of a number. -/
private structure NumberParts where
  negative : Bool
  whole : Text
  part : Text
  power : Text

/-- The parts of the number at the beginning of a text. -/
private def numberParts (t : Text) : NumberParts :=
  let body := (takeMinus t).2
  let after := body.drop (wholeDigits body).length
  ⟨(takeMinus t).1, wholeDigits body, partDigits after, powerText (afterPart after)⟩

namespace NumberParts

/-- How many code points a number takes. -/
private def used (parts : NumberParts) : Nat :=
  (if parts.negative then 1 else 0) + parts.whole.length +
    (if parts.part.isEmpty then 0 else parts.part.length + 1) + parts.power.length

/-- The number with the parts. -/
private def value (parts : NumberParts) : Except Stop Number :=
  let digitsOf (t : Text) := Text.readDigits 10 (t.filterMap CodePoint.digitValue?)
  if parts.part.isEmpty && parts.power.isEmpty then
    if Number.digitLimit < parts.whole.length then .error (.tooManyDigits parts.whole.length)
    else
      let n : Int := digitsOf parts.whole
      .ok (.int (if parts.negative then -n else n))
  else
    let exponent := (Decimal.readPower? parts.power).getD 0 - parts.part.length
    .ok (.float (Binary64.ofDecimal parts.negative (digitsOf (parts.whole ++ parts.part)) exponent))

end NumberParts

private theorem readNumber?_eq (cursor : Cursor) : readNumber? cursor =
    if (numberParts cursor.rest).whole.isEmpty then none
    else some ((numberParts cursor.rest).value.map
      fun n ↦ (n, cursor.advance (numberParts cursor.rest).used)) := by
  unfold readNumber? numberParts NumberParts.value NumberParts.used afterPart
  rcases takeMinus cursor.rest with ⟨negative, body⟩
  dsimp only
  repeat' split
  all_goals rfl

private theorem drop_used (t : Text) : t.drop (numberParts t).used =
    (afterPart ((takeMinus t).2.drop (wholeDigits (takeMinus t).2).length)).drop
      (numberParts t).power.length := by
  have hminus : t.drop (if (numberParts t).negative then 1 else 0) = (takeMinus t).2 := by
    unfold numberParts takeMinus
    split
    · split <;> rfl
    · rfl
  rw [NumberParts.used, ← List.drop_drop, ← List.drop_drop, ← List.drop_drop, hminus,
    afterPart_eq_drop]
  rfl

private theorem numberParts_of_sameLines (h : SameLines s t) : numberParts s = numberParts t ∧
    SameLines (s.drop (numberParts s).used) (t.drop (numberParts t).used) := by
  obtain ⟨hminus, hbody⟩ := takeMinus_of_sameLines h
  obtain ⟨hwhole, hafter⟩ := wholeDigits_of_sameLines hbody
  obtain ⟨hpart, hrest⟩ := partDigits_of_sameLines hafter
  obtain ⟨hpower, hbehind⟩ := powerText_of_sameLines hrest
  rw [drop_used, drop_used]
  exact ⟨(NumberParts.mk.injEq ..).mpr ⟨hminus, hwhole, hpart, hpower⟩, hbehind⟩

/-- A number is read in the same way in two texts with the same lines. -/
private theorem readNumber?_of_sameLines {cursor cursor' behind : Cursor} {n : Number}
    (h : SameLines cursor.rest cursor'.rest)
    (hread : readNumber? cursor = some (.ok (n, behind))) :
    ∃ behind', readNumber? cursor' = some (.ok (n, behind')) ∧
      SameLines behind.rest behind'.rest := by
  obtain ⟨hparts, hbehind⟩ := numberParts_of_sameLines h
  rw [readNumber?_eq] at hread ⊢
  rw [← hparts] at hbehind ⊢
  split at hread
  · cases hread
  next hwhole =>
  rw [if_neg hwhole]
  cases hvalue : (numberParts cursor.rest).value with
  | error stop =>
    rw [hvalue] at hread
    cases hread
  | ok n =>
    rw [hvalue] at hread
    cases hread
    exact ⟨_, rfl, hbehind⟩

end Numbers

/-! ### Values -/

section Values

variable {α : Type} {cursor cursor' : Cursor} {depth depth' : Nat}

/-- What one reader comes to, the other one comes to as well, with the same lines behind it. -/
private def Carries (x y : Except Stop (α × Cursor)) : Prop :=
  ∀ a behind, x = .ok (a, behind) →
    ∃ behind', y = .ok (a, behind') ∧ SameLines behind.rest behind'.rest

private theorem Carries.error {stop : Stop} {y : Except Stop (α × Cursor)} :
    Carries (.error stop) y := fun _ _ h ↦ by cases h

private theorem Carries.ok {a : α} (h : SameLines cursor.rest cursor'.rest) :
    Carries (.ok (a, cursor)) (.ok (a, cursor')) := fun _ _ heq ↦ by
  cases heq
  exact ⟨cursor', rfl, h⟩

/-- Both readers go on in the same way if a word stands before them. -/
private theorem Carries.ite_sees (h : SameLines cursor.rest cursor'.rest) {word : String}
    (hword : ∀ c ∈ Text.ofString word, ¬ IsLineBreak c) {x y x' y' : Except Stop (α × Cursor)}
    (hpos : cursor.sees word = true → cursor'.sees word = true → Carries x x')
    (hneg : Carries y y') :
    Carries (if cursor.sees word then x else y) (if cursor'.sees word then x' else y') := by
  have heq := h.sees_eq word hword
  rw [← heq]
  split
  · next hsees => exact hpos hsees (heq ▸ hsees)
  · exact hneg

private theorem carries_readScalar (h : SameLines cursor.rest cursor'.rest) :
    Carries (readScalar cursor) (readScalar cursor') := by
  unfold readScalar
  iterate 6
    refine .ite_sees h (by decide) (fun hsees _ ↦ .ok (h.advance_of_sees _ (by decide) hsees)) ?_
  intro value behind hread
  split at hread
  · cases hread
  · cases hread
  · next n after hnumber =>
    cases hread
    obtain ⟨behind', hnumber', hsame⟩ := readNumber?_of_sameLines h hnumber
    exact ⟨behind', by rw [hnumber'], hsame⟩

/-- The readers of members and items agree at two depths, the second of which is enough. -/
private structure Agree (depth depth' : Nat) : Prop where
  members : ∀ {cursor cursor'} read, SameLines cursor.rest cursor'.rest →
    2 * cursor'.rest.length + 1 ≤ depth' →
    Carries (readMembers depth cursor read) (readMembers depth' cursor' read)
  items : ∀ {cursor cursor'} read, SameLines cursor.rest cursor'.rest →
    2 * cursor'.rest.length + 2 ≤ depth' →
    Carries (readItems depth cursor read) (readItems depth' cursor' read)
  value : ∀ {cursor cursor'}, SameLines cursor.rest cursor'.rest →
    2 * cursor'.rest.length + 1 ≤ depth' →
    Carries (readValue depth cursor) (readValue depth' cursor')

private theorem carries_readValue (hagree : Agree depth depth')
    (h : SameLines cursor.rest cursor'.rest) (hdepth : 2 * cursor'.rest.length ≤ depth') :
    Carries (readValue (depth + 1) cursor) (readValue (depth' + 1) cursor') := by
  rw [readValue, readValue]
  rcases h.head_cases with ⟨hs, ht⟩ | ⟨c, s, t, hs, ht, hrest⟩ | ⟨c, s, d, t, hs, ht, hc, hd⟩
  · rw [hs]
    exact .error
  · rw [hs, ht]
    dsimp only
    have hinner : SameLines (cursor.advance 1).skipSpace.rest
        (cursor'.advance 1).skipSpace.rest := by
      refine SameLines.skipSpace ?_
      rwa [Cursor.advance, Cursor.advance, hs, ht]
    have hlength : (cursor'.advance 1).skipSpace.rest.length + 1 ≤ cursor'.rest.length := by
      rw [ht, List.length_cons]
      refine Nat.succ_le_succ (Nat.le_trans (Cursor.rest_skipSpace_suffix _).length_le ?_)
      rw [Cursor.advance, ht]
      exact Nat.le_refl _
    split
    · intro value behind hread
      split at hread
      · cases hread
      · next key after hstring =>
        cases hread
        obtain ⟨behind', hstring', hsame⟩ := readString_of_sameLines cursor'.offset
          (cursor'.offset + 1) hrest hstring
        exact ⟨behind', by rw [hstring'], hsame⟩
    split
    · exact .ite_sees hinner (by decide)
        (fun hsees _ ↦ .ok (hinner.advance_of_sees _ (by decide) hsees))
        (hagree.members [] hinner (by omega))
    split
    · exact .ite_sees hinner (by decide)
        (fun hsees _ ↦ .ok (hinner.advance_of_sees _ (by decide) hsees))
        (hagree.items [] hinner (by omega))
    · exact carries_readScalar h
  · rw [hs, ht]
    dsimp only
    rw [if_neg (hc.val_ne (by decide)), if_neg (hc.val_ne (by decide)),
      if_neg (hc.val_ne (by decide)), if_neg (hd.val_ne (by decide)),
      if_neg (hd.val_ne (by decide)), if_neg (hd.val_ne (by decide))]
    exact carries_readScalar h

/-- A mark is at least one code point. -/
private theorem length_mark_lt {word : String} (hword : Text.ofString word ≠ [])
    (hsees : cursor.skipSpace.sees word = true) :
    (cursor.skipSpace.advance 1).skipSpace.rest.length < cursor.rest.length := by
  have hmark := (List.isPrefixOf_iff_prefix.mp hsees).length_le
  have hpos := List.length_pos_iff.mpr hword
  have hspace := cursor.rest_skipSpace_suffix.length_le
  have hbehind := (cursor.skipSpace.advance 1).rest_skipSpace_suffix.length_le
  have hdrop : (cursor.skipSpace.advance 1).rest.length = cursor.skipSpace.rest.length - 1 :=
    List.length_drop
  omega

/-- Behind a value both readers are at the end of their list, or go on behind a comma, where less of
the text is left. -/
private theorem carries_ending (h : SameLines cursor.rest cursor'.rest) (close : String)
    (hclose : ∀ c ∈ Text.ofString close, ¬ IsLineBreak c) (hone : (Text.ofString close).length = 1)
    {value : Json} {more more' : Cursor → Except Stop (Json × Cursor)} {stop stop' : Stop}
    (hmore : ∀ {behind behind'}, SameLines behind.rest behind'.rest →
      behind'.rest.length < cursor'.rest.length → Carries (more behind) (more' behind')) :
    Carries
      (if cursor.skipSpace.sees close then .ok (value, cursor.skipSpace.advance 1)
        else if cursor.skipSpace.sees "," then more (cursor.skipSpace.advance 1).skipSpace
        else .error stop)
      (if cursor'.skipSpace.sees close then .ok (value, cursor'.skipSpace.advance 1)
        else if cursor'.skipSpace.sees "," then more' (cursor'.skipSpace.advance 1).skipSpace
        else .error stop') := by
  refine .ite_sees h.skipSpace hclose (fun hsees _ ↦ .ok ?_) ?_
  · rw [← hone]
    exact h.skipSpace.advance_of_sees close hclose hsees
  · refine .ite_sees h.skipSpace (by decide) (fun hsees hsees' ↦ ?_) .error
    exact hmore (h.skipSpace.advance_of_sees _ (by decide) hsees).skipSpace
      (length_mark_lt (by decide) hsees')

private theorem carries_readItems (hagree : Agree depth depth')
    (h : SameLines cursor.rest cursor'.rest) (hdepth : 2 * cursor'.rest.length + 1 ≤ depth')
    (read : List Json) :
    Carries (readItems (depth + 1) cursor read) (readItems (depth' + 1) cursor' read) := by
  rw [readItems, readItems]
  cases hvalue : readValue depth cursor with
  | error stop => exact .error
  | ok result =>
    obtain ⟨value, behind⟩ := result
    obtain ⟨behind', hvalue', hbehind⟩ := hagree.value h hdepth value behind hvalue
    have hlength := (((staysIn_readers depth').1 cursor').rest_suffix hvalue').length_le
    rw [hvalue']
    exact carries_ending hbehind "]" (by decide) rfl
      fun hmore hlt ↦ hagree.items _ hmore (by omega)

private theorem carries_readMembers (hagree : Agree depth depth')
    (h : SameLines cursor.rest cursor'.rest) (hdepth : 2 * cursor'.rest.length ≤ depth')
    (read : List (Text × Json)) :
    Carries (readMembers (depth + 1) cursor read) (readMembers (depth' + 1) cursor' read) := by
  rw [readMembers, readMembers, ← h.sees_eq "\"" (by decide)]
  split
  · exact .error
  next hquote =>
  have hsees : cursor.sees "\"" = true := by simpa using hquote
  have hpos : 0 < cursor'.rest.length := by
    have hsees' := h.sees_eq "\"" (by decide) ▸ hsees
    exact (List.isPrefixOf_iff_prefix.mp hsees').length_le
  have hinner : SameLines (cursor.rest.drop 1) (cursor'.rest.drop 1) :=
    h.advance_of_sees "\"" (by decide) hsees
  cases hkey : readString cursor.offset (cursor.offset + 1) (cursor.rest.drop 1) [] with
  | error stop => exact .error
  | ok result =>
    obtain ⟨key, behindKey⟩ := result
    obtain ⟨behindKey', hkey', hbehindKey⟩ := readString_of_sameLines cursor'.offset
      (cursor'.offset + 1) hinner hkey
    have hkeyLength := ((staysIn_readString _ _ _ _).rest_suffix hkey').length_le
    rw [List.length_drop] at hkeyLength
    rw [hkey']
    dsimp only
    rw [← hbehindKey.skipSpace.sees_eq ":" (by decide)]
    split
    · exact .error
    next hcolon =>
    have hstart := (hbehindKey.skipSpace.advance_of_sees ":" (by decide)
      (by simpa using hcolon)).skipSpace
    have hstartLength := behindKey'.rest_mark_skipSpace_suffix.length_le
    change SameLines (behindKey.skipSpace.advance 1).skipSpace.rest
      (behindKey'.skipSpace.advance 1).skipSpace.rest at hstart
    cases hvalue : readValue depth (behindKey.skipSpace.advance 1).skipSpace with
    | error stop => exact .error
    | ok result =>
      obtain ⟨value, behind⟩ := result
      obtain ⟨behind', hvalue', hbehind⟩ := hagree.value hstart (by omega) value behind hvalue
      have hlength := (((staysIn_readers depth').1 _).rest_suffix hvalue').length_le
      rw [hvalue']
      exact carries_ending hbehind "\x7d" (by decide) rfl
        fun hmore hlt ↦ hagree.members _ hmore (by omega)

private theorem agree (depth depth' : Nat) : Agree depth depth' := by
  induction depth generalizing depth' with
  | zero =>
    refine ⟨fun read _ _ ↦ ?_, fun read _ _ ↦ ?_, fun _ _ ↦ ?_⟩
    · rw [readMembers]
      exact .error
    · rw [readItems]
      exact .error
    · rw [readValue]
      exact .error
  | succ depth ih =>
    cases depth' with
    | zero => exact ⟨fun _ _ h ↦ by omega, fun _ _ h ↦ by omega, fun _ h ↦ by omega⟩
    | succ depth' =>
      have hagree := ih depth'
      exact ⟨fun read h hdepth ↦ carries_readMembers hagree h (by omega) read,
        fun read h hdepth ↦ carries_readItems hagree h (by omega) read,
        fun h hdepth ↦ carries_readValue hagree h (by omega)⟩

end Values

/-! ### Documents -/

variable {s t : Text} {value : Json}

private theorem readAll_of_sameLines (h : SameLines s t) (hread : readAll s = .ok value) :
    readAll t = .ok value := by
  have hstart : SameLines (Cursor.skipSpace ⟨0, s⟩).rest (Cursor.skipSpace ⟨0, t⟩).rest :=
    @SameLines.skipSpace ⟨0, s⟩ ⟨0, t⟩ h
  have hlength := (Cursor.rest_skipSpace_suffix ⟨0, t⟩).length_le
  dsimp only at hlength
  have hcarries := (agree (2 * s.length + 2) (2 * t.length + 2)).value hstart (by omega)
  rw [readAll] at hread ⊢
  split at hread
  · cases hread
  · next value' behind hvalue =>
    obtain ⟨behind', hvalue', hbehind⟩ := hcarries value' behind hvalue
    rw [hvalue']
    dsimp only at hread ⊢
    split at hread
    · next hend =>
      cases hread
      rw [List.isEmpty_iff] at hend
      rw [if_pos (List.isEmpty_iff.mpr (hbehind.skipSpace.eq_nil_iff.mp hend))]
    · cases hread

/-- A text that denotes a value keeps it whatever its line breaks are. -/
theorem SameLines.read_eq_ok (h : SameLines s t) : read s = .ok value ↔ read t = .ok value := by
  suffices hone : ∀ {s t : Text}, SameLines s t → read s = .ok value → read t = .ok value from
    ⟨hone h, hone h.symm⟩
  intro s t h hread
  have hmark : s.head?.map (·.val) = some 0xFEFF ↔ t.head?.map (·.val) = some 0xFEFF := by
    rcases h.head_cases with ⟨rfl, rfl⟩ | ⟨c, s, t, rfl, rfl, -⟩ | ⟨c, s, d, t, rfl, rfl, hc, hd⟩
    · rfl
    · rfl
    · rcases hc with hc | hc <;> rcases hd with hd | hd <;> simp [hc, hd]
  rw [read_eq_ok_iff] at hread ⊢
  exact ⟨mt hmark.mpr hread.1, readAll_of_sameLines h hread.2⟩

/-- Unifying the line breaks of a text changes nothing in what it denotes. -/
theorem read_unifyLineBreaks :
    read (Utf8.unifyLineBreaks t) = .ok value ↔ read t = .ok value :=
  (SameLines.unifyLineBreaks t).read_eq_ok.symm

end StoryCatalog.Json
