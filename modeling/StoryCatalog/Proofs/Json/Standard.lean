import StoryCatalog.Proofs.Json.Grammar

/-!
# When what is printed is standard

Infinities and NaN are printed as words that the grammar has no rule for. A scan that leaves out the
strings of a text finds an initial of these words in what is printed exactly if a number is not
finite, and in no document of the grammar. So a value is printed as a document exactly if its
numbers are finite (`isDocument_print_iff`).
-/

namespace StoryCatalog.Json

/-! ### Scans -/

/-- Where a scan stands: outside of strings, inside one, or behind a backslash in it. -/
inductive Place where
  | outside | inside | escaped

/-- The place behind a code point. -/
def Place.next (place : Place) (c : CodePoint) : Place :=
  match place with
  | .outside => if c.val = 0x22 then .inside else .outside
  | .inside => if c.val = 0x22 then .outside else if c.val = 0x5C then .escaped else .inside
  | .escaped => .inside

/-- Whether a code point is an initial of the words for infinities and NaN. -/
def isInitial (c : CodePoint) : Bool := c.val == 0x49 || c.val == 0x4E

/-- A code point neither begins a string nor is an initial. -/
def IsMark (c : CodePoint) : Prop := c.val ≠ 0x22 ∧ isInitial c = false

instance (c : CodePoint) : Decidable (IsMark c) := inferInstanceAs (Decidable (_ ∧ _))

/-- A scan: its place, and whether it has found an initial outside of strings. -/
structure Scan where
  place : Place
  found : Bool

/-- The scan after a code point. -/
def Scan.step (scan : Scan) (c : CodePoint) : Scan where
  place := scan.place.next c
  found :=
    match scan.place with
    | .outside => scan.found || isInitial c
    | _ => scan.found

/-- The strings of a text end in it, and outside of them it holds no initial exactly if a statement
is true. -/
def WordlessIff (P : Prop) (t : Text) : Prop :=
  ∃ word : Bool, (word = false ↔ P) ∧
    ∀ found, t.foldl Scan.step ⟨.outside, found⟩ = ⟨.outside, found || word⟩

namespace WordlessIff

variable {P Q : Prop} {s t : Text}

theorem append (hs : WordlessIff P s) (ht : WordlessIff Q t) : WordlessIff (P ∧ Q) (s ++ t) := by
  obtain ⟨a, ha, hscan⟩ := hs
  obtain ⟨b, hb, hscan'⟩ := ht
  refine ⟨a || b, by rw [Bool.or_eq_false_iff, ha, hb], fun found ↦ ?_⟩
  rw [List.foldl_append, hscan, hscan', Bool.or_assoc]

theorem congr (h : P ↔ Q) (ht : WordlessIff P t) : WordlessIff Q t := by
  obtain ⟨word, hword, hscan⟩ := ht
  exact ⟨word, hword.trans h, hscan⟩

/-- What a scan finds is a matter of the text alone. -/
theorem iff (h : WordlessIff P t) (h' : WordlessIff Q t) : P ↔ Q := by
  obtain ⟨a, ha, hscan⟩ := h
  obtain ⟨b, hb, hscan'⟩ := h'
  have hsame := congrArg Scan.found ((hscan false).symm.trans (hscan' false))
  simp only [Bool.false_or] at hsame
  rw [← ha, ← hb, hsame]

/-- A text without strings is scanned for initials. -/
theorem of_forall_ne (h : ∀ c ∈ t, c.val ≠ 0x22) :
    WordlessIff (∀ c ∈ t, isInitial c = false) t := by
  refine ⟨t.any isInitial, by simp, ?_⟩
  induction t with
  | nil => simp
  | cons c rest ih =>
    obtain ⟨hc, hrest⟩ := List.forall_mem_cons.mp h
    intro found
    have hstep : Scan.step ⟨.outside, found⟩ c = ⟨.outside, found || isInitial c⟩ := by
      rw [Scan.step, Place.next, if_neg hc]
    rw [List.foldl_cons, hstep, ih hrest, List.any_cons, Bool.or_assoc]

/-- A text of other code points holds neither strings nor initials. -/
theorem of_forall (h : ∀ c ∈ t, IsMark c) : WordlessIff True t :=
  (of_forall_ne fun c hc ↦ (h c hc).1).congr (iff_true_intro fun c hc ↦ (h c hc).2)

/-- A text behind another one that holds no initial. -/
theorem append_left (hs : WordlessIff True s) (ht : WordlessIff P t) : WordlessIff P (s ++ t) :=
  (hs.append ht).congr (iff_of_eq (true_and P))

theorem append_right (hs : WordlessIff P s) (ht : WordlessIff True t) : WordlessIff P (s ++ t) :=
  (hs.append ht).congr (iff_of_eq (and_true P))

theorem cons {c : CodePoint} (hc : IsMark c) (ht : WordlessIff P t) :
    WordlessIff P (c :: t) :=
  append_left (of_forall (List.forall_mem_singleton.mpr hc)) ht

end WordlessIff

/-! ### Strings -/

open Json.Grammar

private theorem val_ne_of_isHexDigit {c : CodePoint} (h : c.isHexDigit = true) :
    c.val ≠ 0x22 ∧ c.val ≠ 0x5C := by
  simp only [CodePoint.isHexDigit, CodePoint.hexValue?, CodePoint.isDigit, Bool.and_eq_true,
    decide_eq_true_eq] at h
  split at h
  · omega
  split at h
  · omega
  split at h
  · omega
  · cases h

private theorem foldl_inside {t : Text} (h : ∀ c ∈ t, c.val ≠ 0x22 ∧ c.val ≠ 0x5C) (found : Bool) :
    t.foldl Scan.step ⟨.inside, found⟩ = ⟨.inside, found⟩ := by
  induction t with
  | nil => rfl
  | cons c rest ih =>
    obtain ⟨⟨hquote, hbackslash⟩, hrest⟩ := List.forall_mem_cons.mp h
    have hstep : Scan.step ⟨.inside, found⟩ c = ⟨.inside, found⟩ := by
      rw [Scan.step, Place.next, if_neg hquote, if_neg hbackslash]
    rw [List.foldl_cons, hstep, ih hrest]

private theorem foldl_character {t : Text} (h : IsCharacter t) (found : Bool) :
    t.foldl Scan.step ⟨.inside, found⟩ = ⟨.inside, found⟩ := by
  cases h with
  | plain _ hquote hbackslash =>
    exact foldl_inside (List.forall_mem_singleton.mpr ⟨hquote, hbackslash⟩) found
  | short _ => rfl
  | unit _ hdigits => exact foldl_inside (fun d hd ↦ val_ne_of_isHexDigit (hdigits d hd)) found

private theorem foldl_characters {t : Text} (h : AreCharacters t) (found : Bool) :
    t.foldl Scan.step ⟨.inside, found⟩ = ⟨.inside, found⟩ := by
  induction h with
  | nil => rfl
  | cons hfirst _ ih => rw [List.foldl_append, foldl_character hfirst, ih]

/-- A scan leaves a string out. -/
theorem wordlessIff_of_isString {t : Text} (h : IsString t) : WordlessIff True t := by
  obtain ⟨hcharacters⟩ := h
  refine ⟨false, by simp, fun found ↦ ?_⟩
  have hquote : Scan.step ⟨.outside, found⟩ (CodePoint.ofChar '"') = ⟨.inside, found⟩ := by
    cases found <;> rfl
  rw [List.foldl_cons, hquote, List.foldl_append, foldl_characters hcharacters, Bool.or_false]
  rfl

/-! ### Documents of the grammar -/

private theorem isMark_of_isDigit {c : CodePoint} (h : c.isDigit = true) : IsMark c := by
  simp only [CodePoint.isDigit, Bool.and_eq_true, decide_eq_true_eq] at h
  have hinitial : c.val ≠ 0x49 ∧ c.val ≠ 0x4E := by omega
  exact ⟨by omega, by simp [isInitial, hinitial]⟩

private theorem wordlessIff_of_isSpace {t : Text} (h : IsSpace t) : WordlessIff True t := by
  refine .of_forall fun c hc ↦ ?_
  have hspace := h c hc
  simp only [Cursor.isSpace, Bool.or_eq_true, beq_iff_eq] at hspace
  rcases hspace with ((hval | hval) | hval) | hval <;> simp [IsMark, isInitial, hval]

private theorem wordlessIff_of_digits {t : Text} (h : ∀ c ∈ t, c.isDigit = true) :
    WordlessIff True t := .of_forall fun c hc ↦ isMark_of_isDigit (h c hc)

private theorem wordlessIff_of_isFraction {t : Text} (h : IsFraction t) : WordlessIff True t := by
  cases h with
  | none => exact wordlessIff_of_digits (by simp)
  | digits ht => exact .cons (by decide) (wordlessIff_of_digits ht.2)

private theorem wordlessIff_of_isExponent {t : Text} (h : IsExponent t) : WordlessIff True t := by
  cases h with
  | none => exact wordlessIff_of_digits (by simp)
  | digits hmark hsign ht =>
    have hsigned := wordlessIff_of_digits ht.2
    refine .cons ?_ (.append_left ?_ hsigned)
    · rcases hmark with hmark | hmark <;> simp [IsMark, isInitial, hmark]
    · cases hsign <;> exact .of_forall (by decide)

private theorem wordlessIff_of_isNumber {t : Text} (h : IsNumber t) : WordlessIff True t := by
  obtain ⟨negative, ⟨c, rest, rfl, hwhole, -⟩, hpart, hexponent⟩ := h
  have hbody := ((wordlessIff_of_digits hwhole).append_left
    (wordlessIff_of_isFraction hpart)).append_left (wordlessIff_of_isExponent hexponent)
  cases negative with
  | true => exact .cons (by decide) hbody
  | false => exact hbody

/-- Outside of its strings a document of the grammar holds no initial. -/
theorem wordlessIff_of_derives {symbol : Symbol} {t : Text} (h : Derives symbol t) :
    WordlessIff True t := by
  induction h with
  | null => exact .of_forall (by decide)
  | true => exact .of_forall (by decide)
  | false => exact .of_forall (by decide)
  | number h => exact wordlessIff_of_isNumber h
  | string h => exact wordlessIff_of_isString h
  | emptyArray h | emptyObject h =>
    exact .cons (by decide) ((wordlessIff_of_isSpace h).append_right (.of_forall (by decide)))
  | array _ ih | object _ ih => exact .cons (by decide) (ih.append_right (.of_forall (by decide)))
  | element hbefore _ hafter ih =>
    exact .append_right (.append_left (wordlessIff_of_isSpace hbefore) ih)
      (wordlessIff_of_isSpace hafter)
  | last _ ih | lastMember _ ih => exact ih
  | more _ _ ih ih' | moreMembers _ _ ih ih' => exact .append_left ih (.cons (by decide) ih')
  | member hbefore hkey hbetween _ ih =>
    have hfront := ((wordlessIff_of_isSpace hbefore).append_left
      (wordlessIff_of_isString hkey)).append_left (wordlessIff_of_isSpace hbetween)
    exact .append_left hfront (.cons (by decide) ih)

/-! ### What is printed -/

variable {layout : Layout}

private theorem wordlessIff_printNumber {n : Number} {t : Text}
    (hproper : (Json.number n).IsProper) (hprint : printNumber n = .ok t) :
    WordlessIff (Json.number n).IsFinite t := by
  by_cases hfinite : (Json.number n).IsFinite
  · have hnumber := isNumber_printNumber hproper hfinite hprint
    exact (wordlessIff_of_isNumber hnumber).congr (iff_of_true trivial hfinite)
  · cases n with
    | int n => exact absurd isFinite_int hfinite
    | float x =>
      have hword : ∀ t : Text, (∀ c ∈ t, c.val ≠ 0x22) → (∃ c ∈ t, isInitial c = true) →
          WordlessIff (Json.number (.float x)).IsFinite t := by
        rintro t hquote ⟨c, hc, hinitial⟩
        refine (WordlessIff.of_forall_ne hquote).congr (iff_of_false (fun h ↦ ?_) hfinite)
        rw [h c hc] at hinitial
        cases hinitial
      cases x with
      | finite negative m e => exact absurd (isFinite_float.mpr ⟨negative, m, e, rfl⟩) hfinite
      | infinite negative =>
        cases negative <;> cases hprint <;> exact hword _ (by decide) (by decide)
      | nan =>
        cases hprint
        exact hword _ (by decide) (by decide)

private theorem wordlessIff_concat_nil : WordlessIff True (Text.concat []) :=
  .of_forall (by simp [Text.concat])

private theorem wordlessIff_comma (hlayout : layout.IsStandard) (depth : Nat) :
    WordlessIff True (layout.comma depth) := by
  obtain ⟨spaces, hcomma, hspaces⟩ := exists_comma_eq hlayout depth
  rw [hcomma]
  exact .cons (by decide) (wordlessIff_of_isSpace hspaces)

private theorem wordlessIff_colon (hlayout : layout.IsStandard) :
    WordlessIff True layout.colon := by
  obtain ⟨spaces, hcolon, hspaces⟩ := exists_colon_eq hlayout
  rw [hcolon]
  exact .cons (by decide) (wordlessIff_of_isSpace hspaces)

private theorem wordlessIff_lineBreak (layout : Layout) (depth : Nat) :
    WordlessIff True (layout.lineBreak depth) :=
  wordlessIff_of_isSpace (isSpace_lineBreak layout depth)

private theorem wordlessIff_printItems (hlayout : layout.IsStandard) {depth : Nat}
    {items : List Json} (h : ∀ item ∈ items, ∀ t, printAt layout depth item = .ok t →
      WordlessIff item.IsFinite t) {t : Text} (hprint : printItems layout depth items = .ok t) :
    WordlessIff (∀ item ∈ items, item.IsFinite) t := by
  induction items generalizing t with
  | nil =>
    cases hprint
    exact .congr (by simp) wordlessIff_concat_nil
  | cons item items ih =>
    obtain ⟨hitem, hitems⟩ := List.forall_mem_cons.mp h
    obtain ⟨first, rest, hfirst, hrest, rfl⟩ := printItems_cons_ok_iff.mp hprint
    have htext : Text.concat [layout.comma depth, first, rest] =
        layout.comma depth ++ (first ++ rest) := by simp [Text.concat]
    rw [htext]
    refine .congr List.forall_mem_cons.symm ?_
    exact .append_left (wordlessIff_comma hlayout depth)
      ((hitem first hfirst).append (ih hitems hrest))

private theorem wordlessIff_printFields (hlayout : layout.IsStandard) {depth : Nat}
    {fields : List (Text × Json)} (h : ∀ field ∈ fields, ∀ t,
      printAt layout depth field.2 = .ok t → WordlessIff field.2.IsFinite t) {t : Text}
    (hprint : printFields layout depth fields = .ok t) :
    WordlessIff (∀ field ∈ fields, field.2.IsFinite) t := by
  induction fields generalizing t with
  | nil =>
    cases hprint
    exact .congr (by simp) wordlessIff_concat_nil
  | cons field fields ih =>
    obtain ⟨hfield, hfields⟩ := List.forall_mem_cons.mp h
    obtain ⟨key, value⟩ := field
    obtain ⟨first, rest, hfirst, hrest, rfl⟩ := printFields_cons_ok_iff.mp hprint
    have htext : Text.concat [layout.comma depth, printString key, layout.colon, first, rest] =
        layout.comma depth ++ (printString key ++ (layout.colon ++ (first ++ rest))) := by
      simp [Text.concat]
    rw [htext]
    refine .congr List.forall_mem_cons.symm ?_
    exact .append_left (wordlessIff_comma hlayout depth) <|
      .append_left (wordlessIff_of_isString (isString_printString key)) <|
      .append_left (wordlessIff_colon hlayout) ((hfield first hfirst).append (ih hfields hrest))

/-- Brackets on lines of their own hold no initials. -/
private theorem wordlessIff_enclosed {P : Prop} {t : Text} (layout : Layout) (depth : Nat)
    {opening closing : CodePoint} (hopening : IsMark opening) (hclosing : IsMark closing)
    (h : WordlessIff P t) :
    WordlessIff P (opening :: (layout.lineBreak (depth + 1) ++
      (t ++ (layout.lineBreak depth ++ [closing])))) := by
  have hend := (wordlessIff_lineBreak layout depth).append_left
    (.of_forall (List.forall_mem_singleton.mpr hclosing))
  exact .cons hopening
    (.append_left (wordlessIff_lineBreak layout (depth + 1)) (h.append_right hend))

/-- Outside of its strings, what is printed holds an initial exactly if a number is not finite. -/
theorem wordlessIff_printAt (hlayout : layout.IsStandard) {value : Json} (hproper : value.IsProper)
    (depth : Nat) (t : Text) (hprint : printAt layout depth value = .ok t) :
    WordlessIff value.IsFinite t := by
  induction value using Json.induction generalizing depth t with
  | null => cases hprint; exact .congr (by simp) (.of_forall (by decide))
  | bool b => cases b <;> cases hprint <;> exact .congr (by simp) (.of_forall (by decide))
  | number n => exact wordlessIff_printNumber hproper hprint
  | string s =>
    cases hprint
    exact .congr (by simp) (wordlessIff_of_isString (isString_printString s))
  | array items ih =>
    cases items with
    | nil => cases hprint; exact .congr (by simp [isFinite_array]) (.of_forall (by decide))
    | cons item items =>
      obtain ⟨first, rest, hfirst, hrest, rfl⟩ := printAt_array_ok_iff.mp hprint
      rw [isProper_array] at hproper
      have hvalue : ∀ v ∈ item :: items, ∀ t, printAt layout (depth + 1) v = .ok t →
          WordlessIff v.IsFinite t := fun v hv t ht ↦ ih v hv (hproper v hv) (depth + 1) t ht
      obtain ⟨hitem, hitems⟩ := List.forall_mem_cons.mp hvalue
      have hinner := (hitem first hfirst).append (wordlessIff_printItems hlayout hitems hrest)
      have hmarks : IsMark (CodePoint.ofChar '[') ∧ IsMark (CodePoint.ofChar ']') := by decide
      have henclosed := wordlessIff_enclosed layout depth hmarks.1 hmarks.2 hinner
      rw [isFinite_array, List.forall_mem_cons]
      simpa [Text.concat, Text.ofString] using henclosed
  | object fields ih =>
    cases fields with
    | nil => cases hprint; exact .congr (by simp [isFinite_object]) (.of_forall (by decide))
    | cons field fields =>
      obtain ⟨key, value⟩ := field
      obtain ⟨first, rest, hfirst, hrest, rfl⟩ := printAt_object_ok_iff.mp hprint
      replace hproper := (isProper_object.mp hproper).2
      have hvalue : ∀ v ∈ (key, value) :: fields, ∀ t, printAt layout (depth + 1) v.2 = .ok t →
          WordlessIff v.2.IsFinite t := fun v hv t ht ↦ ih v hv (hproper v hv) (depth + 1) t ht
      obtain ⟨hfield, hfields⟩ := List.forall_mem_cons.mp hvalue
      have hkey := wordlessIff_of_isString (isString_printString key)
      have hinner := (hkey.append_left (wordlessIff_colon hlayout)).append_left
        ((hfield first hfirst).append (wordlessIff_printFields hlayout hfields hrest))
      have hmarks : IsMark (CodePoint.ofChar '\x7b') ∧ IsMark (CodePoint.ofChar '\x7d') := by decide
      have henclosed := wordlessIff_enclosed layout depth hmarks.1 hmarks.2 hinner
      rw [isFinite_object, List.forall_mem_cons]
      simpa [Text.concat, Text.ofString] using henclosed

/-- A value is printed as a document of the grammar exactly if its numbers are finite. -/
theorem isDocument_print_iff (hlayout : layout.IsStandard) {value : Json}
    (hproper : value.IsProper) {t : Text} (hprint : print layout value = .ok t) :
    IsDocument t ↔ value.IsFinite := by
  refine ⟨fun hdocument ↦ ?_, fun hfinite ↦ isDocument_print hlayout hproper hfinite hprint⟩
  have hwordless := wordlessIff_printAt hlayout hproper 0 t hprint
  exact ((wordlessIff_of_derives hdocument).iff hwordless).mp trivial

end StoryCatalog.Json
