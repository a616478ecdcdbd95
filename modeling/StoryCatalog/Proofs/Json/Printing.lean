import StoryCatalog.Json.Printer
import StoryCatalog.Proofs.Json.Value
import StoryCatalog.Proofs.Text.Digits
import StoryCatalog.Proofs.Text.Utf8

/-!
# What is printed

A value is printed exactly if its integers are within the digit limit (`print_ok_iff`), and beyond
ASCII the document holds no other code points than the texts of the value (`forall_mem_print_iff`).
So the document has bytes exactly if, besides, no text of the value holds a surrogate
(`encode_print_ok_iff`).
-/

namespace StoryCatalog

/-- A code point is of ASCII and no carriage return. -/
def CodePoint.IsPlain (c : CodePoint) : Prop := c.val < 0x80 ∧ c.val ≠ 0x0D

instance (c : CodePoint) : Decidable c.IsPlain := inferInstanceAs (Decidable (_ ∧ _))

namespace Json

/-! ### The steps of printing -/

variable {layout : Layout} {depth : Nat} {t : Text}

theorem printAt_array_ok_iff {item : Json} {items : List Json} :
    printAt layout depth (.array (item :: items)) = .ok t ↔
      ∃ first rest, printAt layout (depth + 1) item = .ok first ∧
        printItems layout (depth + 1) items = .ok rest ∧
        t = Text.concat ["[", layout.lineBreak (depth + 1), first, rest, layout.lineBreak depth,
          "]"] := by
  rw [printAt]
  cases printAt layout (depth + 1) item <;> cases printItems layout (depth + 1) items <;>
    simp [bind, Except.bind, pure, Except.pure, eq_comm]

theorem printAt_object_ok_iff {key : Text} {value : Json} {fields : List (Text × Json)} :
    printAt layout depth (.object ((key, value) :: fields)) = .ok t ↔
      ∃ first rest, printAt layout (depth + 1) value = .ok first ∧
        printFields layout (depth + 1) fields = .ok rest ∧
        t = Text.concat ["\x7b", layout.lineBreak (depth + 1), printString key, layout.colon, first,
          rest, layout.lineBreak depth, "\x7d"] := by
  rw [printAt]
  cases printAt layout (depth + 1) value <;> cases printFields layout (depth + 1) fields <;>
    simp [bind, Except.bind, pure, Except.pure, eq_comm]

theorem printItems_cons_ok_iff {item : Json} {items : List Json} :
    printItems layout depth (item :: items) = .ok t ↔
      ∃ first rest, printAt layout depth item = .ok first ∧
        printItems layout depth items = .ok rest ∧
        t = Text.concat [layout.comma depth, first, rest] := by
  rw [printItems]
  cases printAt layout depth item <;> cases printItems layout depth items <;>
    simp [bind, Except.bind, pure, Except.pure, eq_comm]

theorem printFields_cons_ok_iff {key : Text} {value : Json} {fields : List (Text × Json)} :
    printFields layout depth ((key, value) :: fields) = .ok t ↔
      ∃ first rest, printAt layout depth value = .ok first ∧
        printFields layout depth fields = .ok rest ∧
        t = Text.concat [layout.comma depth, printString key, layout.colon, first, rest] := by
  rw [printFields]
  cases printAt layout depth value <;> cases printFields layout depth fields <;>
    simp [bind, Except.bind, pure, Except.pure, eq_comm]

/-! ### Whether anything is printed -/

private theorem exists_concat_iff {A B : Text → Prop} {f : Text → Text → Text} :
    (∃ t first rest, A first ∧ B rest ∧ t = f first rest) ↔ (∃ t, A t) ∧ ∃ t, B t := by
  constructor
  · rintro ⟨t, first, rest, hfirst, hrest, -⟩
    exact ⟨⟨first, hfirst⟩, rest, hrest⟩
  · rintro ⟨⟨first, hfirst⟩, rest, hrest⟩
    exact ⟨_, first, rest, hfirst, hrest, rfl⟩

private theorem printItems_ok_iff {items : List Json}
    (h : ∀ item ∈ items, ∀ depth, (∃ t, printAt layout depth item = .ok t) ↔ FitsLimit item) :
    (∃ t, printItems layout depth items = .ok t) ↔ ∀ item ∈ items, FitsLimit item := by
  induction items with
  | nil => simp [printItems]
  | cons item rest ih =>
    obtain ⟨hitem, hrest⟩ := List.forall_mem_cons.mp h
    simp only [printItems_cons_ok_iff]
    rw [exists_concat_iff, hitem depth, ih hrest, List.forall_mem_cons]

private theorem printFields_ok_iff {fields : List (Text × Json)}
    (h : ∀ field ∈ fields, ∀ depth,
      (∃ t, printAt layout depth field.2 = .ok t) ↔ FitsLimit field.2) :
    (∃ t, printFields layout depth fields = .ok t) ↔ ∀ field ∈ fields, FitsLimit field.2 := by
  induction fields with
  | nil => simp [printFields]
  | cons field rest ih =>
    obtain ⟨hfield, hrest⟩ := List.forall_mem_cons.mp h
    obtain ⟨key, value⟩ := field
    simp only [printFields_cons_ok_iff]
    rw [exists_concat_iff, hfield depth, ih hrest, List.forall_mem_cons]

private theorem printAt_ok_iff (value : Json) (depth : Nat) :
    (∃ t, printAt layout depth value = .ok t) ↔ FitsLimit value := by
  induction value using Json.induction generalizing depth with
  | null => simp [printAt, FitsLimit, FitsPart]
  | bool b => simp [printAt, FitsLimit, FitsPart]
  | number n =>
    cases n with
    | int n =>
      by_cases h : Number.fitsLimit n <;> simp [printAt, printNumber, FitsLimit, FitsPart, h]
    | float x => simp [printAt, printNumber, FitsLimit, FitsPart]
  | string t => simp [printAt, FitsLimit, FitsPart]
  | array items ih =>
    rw [fitsLimit_array]
    cases items with
    | nil => simp [printAt]
    | cons item rest =>
      obtain ⟨hitem, hrest⟩ := List.forall_mem_cons.mp ih
      simp only [printAt_array_ok_iff]
      rw [exists_concat_iff, hitem, printItems_ok_iff hrest, List.forall_mem_cons]
  | object fields ih =>
    rw [fitsLimit_object]
    cases fields with
    | nil => simp [printAt]
    | cons field rest =>
      obtain ⟨hfield, hrest⟩ := List.forall_mem_cons.mp ih
      obtain ⟨key, value⟩ := field
      simp only [printAt_object_ok_iff]
      rw [exists_concat_iff, hfield, printFields_ok_iff hrest, List.forall_mem_cons]

/-- A value is printed exactly if its integers are within the digit limit. -/
theorem print_ok_iff {value : Json} : (∃ t, print layout value = .ok t) ↔ FitsLimit value :=
  printAt_ok_iff value 0

/-! ### The code points of a document -/

/-- Commas and colons are followed by nothing but blanks. -/
def Layout.IsStandard : Layout → Prop
  | .line comma colon =>
    (∃ n, comma = CodePoint.ofChar ',' :: List.replicate n (CodePoint.ofChar ' ')) ∧
      ∃ n, colon = CodePoint.ofChar ':' :: List.replicate n (CodePoint.ofChar ' ')
  | .indented _ => True

private theorem isPlain_of_mem_blanks {n : Nat} {c : CodePoint}
    (h : c ∈ List.replicate n (CodePoint.ofChar ' ')) : c.IsPlain := by
  rw [List.eq_of_mem_replicate h]
  decide

private theorem isPlain_of_mem_mark {d c : CodePoint} {n : Nat} (hd : d.IsPlain)
    (h : c ∈ d :: List.replicate n (CodePoint.ofChar ' ')) : c.IsPlain := by
  rcases List.mem_cons.mp h with rfl | hmem
  · exact hd
  · exact isPlain_of_mem_blanks hmem

theorem isPlain_of_mem_lineBreak {c : CodePoint} (h : c ∈ layout.lineBreak depth) : c.IsPlain := by
  cases layout with
  | line comma colon => simp [Layout.lineBreak] at h
  | indented width => exact isPlain_of_mem_mark (by decide) h

theorem isPlain_of_mem_comma (hlayout : layout.IsStandard) {c : CodePoint}
    (h : c ∈ layout.comma depth) : c.IsPlain := by
  cases layout with
  | line comma colon =>
    obtain ⟨⟨n, rfl⟩, -⟩ := hlayout
    exact isPlain_of_mem_mark (by decide) h
  | indented width =>
    rcases List.mem_cons.mp h with rfl | hmem
    · decide
    · exact isPlain_of_mem_lineBreak hmem

theorem isPlain_of_mem_colon (hlayout : layout.IsStandard) {c : CodePoint}
    (h : c ∈ layout.colon) : c.IsPlain := by
  cases layout with
  | line comma colon =>
    obtain ⟨-, n, rfl⟩ := hlayout
    exact isPlain_of_mem_mark (by decide) h
  | indented width => exact isPlain_of_mem_mark (n := 1) (by decide) h

private theorem isPlain_of_isDigit {c : CodePoint} (h : c.isDigit = true) : c.IsPlain := by
  simp only [CodePoint.isDigit, Bool.and_eq_true, decide_eq_true_eq] at h
  exact ⟨by omega, by omega⟩

private theorem isPlain_of_mem_ofNat {n : Nat} {c : CodePoint} (h : c ∈ Text.ofNat n) :
    c.IsPlain := isPlain_of_isDigit (Text.isDigit_of_mem_ofNat h)

private theorem isPlain_of_mem_zeros {n : Nat} {c : CodePoint}
    (h : c ∈ List.replicate n (CodePoint.ofChar '0')) : c.IsPlain := by
  rw [List.eq_of_mem_replicate h]
  decide

private theorem isPlain_of_mem_exponentText (width : Nat) (n : Int) :
    ∀ c ∈ Binary64.exponentText width n, c.IsPlain := by
  rw [Binary64.exponentText, List.forall_mem_cons, List.forall_mem_append]
  refine ⟨?_, fun c ↦ isPlain_of_mem_zeros, fun c ↦ isPlain_of_mem_ofNat⟩
  split <;> decide

private theorem isPlain_of_mem_decimalText (numberLayout : DecimalLayout) (digits : Nat)
    (exponent : Int) : ∀ c ∈ Binary64.decimalText numberLayout digits exponent, c.IsPlain := by
  have hbody : ∀ c ∈ Text.ofNat digits, c.IsPlain := fun c ↦ isPlain_of_mem_ofNat
  have htake : ∀ n, ∀ c ∈ (Text.ofNat digits).take n, c.IsPlain :=
    fun n c hc ↦ hbody c (List.mem_of_mem_take hc)
  have hdrop : ∀ n, ∀ c ∈ (Text.ofNat digits).drop n, c.IsPlain :=
    fun n c hc ↦ hbody c (List.mem_of_mem_drop hc)
  unfold Binary64.decimalText
  dsimp only
  split
  · split
    · rw [List.forall_mem_cons, List.forall_mem_cons, List.forall_mem_append]
      exact ⟨by decide, by decide, fun c ↦ isPlain_of_mem_zeros, hbody⟩
    · split
      · rw [List.forall_mem_append, List.forall_mem_append]
        exact ⟨⟨hbody, fun c ↦ isPlain_of_mem_zeros⟩, by decide⟩
      · rw [List.forall_mem_append, List.forall_mem_cons]
        exact ⟨htake _, by decide, hdrop _⟩
  · rw [List.forall_mem_append, List.forall_mem_append, List.forall_mem_cons]
    refine ⟨⟨htake 1, ?_⟩, by decide, isPlain_of_mem_exponentText _ _⟩
    split
    · simp
    · rw [List.forall_mem_cons]
      exact ⟨by decide, hdrop 1⟩

private theorem isPlain_of_mem_printNumber {n : Number} (hprint : printNumber n = .ok t) :
    ∀ c ∈ t, c.IsPlain := by
  cases n with
  | int n =>
    rw [printNumber] at hprint
    split at hprint
    · cases hprint
      rw [Text.ofInt]
      split
      · rw [List.forall_mem_cons]
        exact ⟨by decide, fun c ↦ isPlain_of_mem_ofNat⟩
      · exact fun c ↦ isPlain_of_mem_ofNat
    · cases hprint
  | float x =>
    rw [printNumber, Except.ok.injEq] at hprint
    subst hprint
    have hsigned : ∀ (negative : Bool) (body : Text), (∀ c ∈ body, c.IsPlain) →
        ∀ c ∈ (if negative then CodePoint.ofChar '-' :: body else body), c.IsPlain := by
      intro negative body hbody
      split
      · rw [List.forall_mem_cons]
        exact ⟨by decide, hbody⟩
      · exact hbody
    cases x with
    | nan => decide
    | infinite negative => exact hsigned negative _ (by decide)
    | finite negative m e =>
      refine hsigned negative _ ?_
      split
      · decide
      · exact isPlain_of_mem_decimalText _ _ _

private theorem isPlain_of_mem_hexDigits {n : Nat} (hn : n < 0x20) :
    ∀ c ∈ CodePoint.hexDigits 4 n, c.IsPlain := by
  revert n
  decide

variable {Q : CodePoint → Prop}

/-- The escape of a code point beyond ASCII is the code point itself. -/
theorem forall_mem_escaped_iff (hQ : ∀ c, c.IsPlain → Q c) (c : CodePoint) :
    (∀ d ∈ escaped c, Q d) ↔ c.val < 0x80 ∨ Q c := by
  have hplain : ∀ {t : Text}, (∀ d ∈ t, d.IsPlain) → c.val < 0x80 →
      ((∀ d ∈ t, Q d) ↔ c.val < 0x80 ∨ Q c) :=
    fun ht hc ↦ iff_of_true (fun d hd ↦ hQ d (ht d hd)) (.inl hc)
  unfold escaped
  split
  · exact hplain (by decide) (by omega)
  split
  · exact hplain (by decide) (by omega)
  split
  · exact hplain (by decide) (by omega)
  split
  · exact hplain (by decide) (by omega)
  split
  · exact hplain (by decide) (by omega)
  split
  · exact hplain (by decide) (by omega)
  split
  · exact hplain (by decide) (by omega)
  split
  · next hc =>
    refine hplain ?_ (by omega)
    rw [List.forall_mem_append]
    exact ⟨by decide, isPlain_of_mem_hexDigits hc⟩
  · next hreturn _ _ _ _ =>
    rw [List.forall_mem_singleton]
    exact ⟨.inr, fun h ↦ h.elim (fun hlt ↦ hQ c ⟨hlt, hreturn⟩) id⟩

private theorem forall_mem_concat_nil : (∀ c ∈ Text.concat [], Q c) ↔ True := by
  simp [Text.concat]

private theorem forall_mem_concat_cons {part : Text} {parts : List Text} :
    (∀ c ∈ Text.concat (part :: parts), Q c) ↔
      (∀ c ∈ part, Q c) ∧ ∀ c ∈ Text.concat parts, Q c := by
  rw [Text.concat, List.flatten_cons, List.forall_mem_append]
  rfl

theorem forall_mem_printString_iff (hQ : ∀ c, c.IsPlain → Q c) (t : Text) :
    (∀ c ∈ printString t, Q c) ↔ ∀ c ∈ t, c.val < 0x80 ∨ Q c := by
  have hquote : Q (CodePoint.ofChar '"') := hQ _ (by decide)
  rw [printString, List.forall_mem_append, List.forall_mem_append, List.forall_mem_singleton]
  rw [and_iff_left hquote, and_iff_right hquote, List.forall_mem_flatMap]
  exact forall₂_congr fun c _ ↦ forall_mem_escaped_iff hQ c

private theorem forall_mem_printItems_iff (hQ : ∀ c, c.IsPlain → Q c)
    (hlayout : layout.IsStandard) {items : List Json}
    (h : ∀ item ∈ items, ∀ depth t, printAt layout depth item = .ok t →
      ((∀ c ∈ t, Q c) ↔ AllPoints (fun c ↦ c.val < 0x80 ∨ Q c) item))
    (hprint : printItems layout depth items = .ok t) :
    (∀ c ∈ t, Q c) ↔ ∀ item ∈ items, AllPoints (fun c ↦ c.val < 0x80 ∨ Q c) item := by
  induction items generalizing t with
  | nil =>
    cases hprint
    simp
  | cons item rest ih =>
    obtain ⟨hitem, hrest⟩ := List.forall_mem_cons.mp h
    obtain ⟨first, more, hfirst, hmore, rfl⟩ := printItems_cons_ok_iff.mp hprint
    have hcomma : ∀ c ∈ layout.comma depth, Q c := fun c hc ↦ hQ c (isPlain_of_mem_comma hlayout hc)
    simp only [forall_mem_concat_cons, forall_mem_concat_nil, List.forall_mem_cons,
      hitem depth first hfirst, ih hrest hmore, and_true]
    exact and_iff_right hcomma

private theorem forall_mem_printFields_iff (hQ : ∀ c, c.IsPlain → Q c)
    (hlayout : layout.IsStandard) {fields : List (Text × Json)}
    (h : ∀ field ∈ fields, ∀ depth t, printAt layout depth field.2 = .ok t →
      ((∀ c ∈ t, Q c) ↔ AllPoints (fun c ↦ c.val < 0x80 ∨ Q c) field.2))
    (hprint : printFields layout depth fields = .ok t) :
    (∀ c ∈ t, Q c) ↔ (∀ key ∈ Fields.keys fields, ∀ c ∈ key, c.val < 0x80 ∨ Q c) ∧
      ∀ field ∈ fields, AllPoints (fun c ↦ c.val < 0x80 ∨ Q c) field.2 := by
  induction fields generalizing t with
  | nil =>
    cases hprint
    simp [Fields.keys]
  | cons field rest ih =>
    obtain ⟨key, value⟩ := field
    obtain ⟨hfield, hrest⟩ := List.forall_mem_cons.mp h
    obtain ⟨first, more, hfirst, hmore, rfl⟩ := printFields_cons_ok_iff.mp hprint
    have hcomma : ∀ c ∈ layout.comma depth, Q c := fun c hc ↦ hQ c (isPlain_of_mem_comma hlayout hc)
    have hcolon : ∀ c ∈ layout.colon, Q c := fun c hc ↦ hQ c (isPlain_of_mem_colon hlayout hc)
    simp only [forall_mem_concat_cons, forall_mem_concat_nil, List.forall_mem_cons,
      hfield depth first hfirst, ih hrest hmore, forall_mem_printString_iff hQ, Fields.keys,
      List.map_cons, and_true]
    rw [and_iff_right hcomma, and_iff_right hcolon]
    tauto

private theorem forall_mem_printAt_iff (hQ : ∀ c, c.IsPlain → Q c) (hlayout : layout.IsStandard)
    (value : Json) (depth : Nat) (t : Text) (hprint : printAt layout depth value = .ok t) :
    (∀ c ∈ t, Q c) ↔ AllPoints (fun c ↦ c.val < 0x80 ∨ Q c) value := by
  have hbreak : ∀ depth, ∀ c ∈ layout.lineBreak depth, Q c :=
    fun depth c hc ↦ hQ c (isPlain_of_mem_lineBreak hc)
  have hword : ∀ word : Text, (∀ c ∈ word, c.IsPlain) → ∀ c ∈ word, Q c :=
    fun word hplain c hc ↦ hQ c (hplain c hc)
  induction value using Json.induction generalizing depth t with
  | null =>
    cases hprint
    exact iff_of_true (hword _ (by decide)) (by simp [AllPoints, ownTexts])
  | bool b =>
    cases hprint
    cases b <;> exact iff_of_true (hword _ (by decide)) (by simp [AllPoints, ownTexts])
  | number n =>
    exact iff_of_true (fun c hc ↦ hQ c (isPlain_of_mem_printNumber hprint c hc))
      (by simp [AllPoints, ownTexts])
  | string s =>
    cases hprint
    rw [forall_mem_printString_iff hQ, allPoints_string]
  | array items ih =>
    rw [allPoints_array]
    cases items with
    | nil =>
      cases hprint
      exact iff_of_true (hword _ (by decide)) (by simp)
    | cons item rest =>
      obtain ⟨hitem, hrest⟩ := List.forall_mem_cons.mp ih
      obtain ⟨first, more, hfirst, hmore, rfl⟩ := printAt_array_ok_iff.mp hprint
      have hopen : ∀ c ∈ Text.ofString "[", Q c := hword _ (by decide)
      have hclose : ∀ c ∈ Text.ofString "]", Q c := hword _ (by decide)
      simp only [forall_mem_concat_cons, forall_mem_concat_nil, List.forall_mem_cons,
        hitem _ first hfirst, forall_mem_printItems_iff hQ hlayout hrest hmore, and_true]
      rw [and_iff_right hopen, and_iff_right (hbreak _), and_iff_left hclose,
        and_iff_left (hbreak _)]
  | object fields ih =>
    rw [allPoints_object]
    cases fields with
    | nil =>
      cases hprint
      exact iff_of_true (hword _ (by decide)) (by simp [Fields.keys])
    | cons field rest =>
      obtain ⟨key, value⟩ := field
      obtain ⟨hfield, hrest⟩ := List.forall_mem_cons.mp ih
      obtain ⟨first, more, hfirst, hmore, rfl⟩ := printAt_object_ok_iff.mp hprint
      have hopen : ∀ c ∈ Text.ofString "\x7b", Q c := hword _ (by decide)
      have hclose : ∀ c ∈ Text.ofString "\x7d", Q c := hword _ (by decide)
      have hcolon : ∀ c ∈ layout.colon, Q c := fun c hc ↦ hQ c (isPlain_of_mem_colon hlayout hc)
      simp only [forall_mem_concat_cons, forall_mem_concat_nil, List.forall_mem_cons,
        hfield _ first hfirst, forall_mem_printString_iff hQ,
        forall_mem_printFields_iff hQ hlayout hrest hmore, Fields.keys, List.map_cons, and_true]
      rw [and_iff_right hopen, and_iff_right (hbreak _), and_iff_right hcolon, and_iff_left hclose,
        and_iff_left (hbreak _)]
      tauto

/-- A document holds, beyond ASCII, the code points of the texts and keys of its value. -/
theorem forall_mem_print_iff (hQ : ∀ c, c.IsPlain → Q c) (hlayout : layout.IsStandard)
    {value : Json} (hprint : print layout value = .ok t) :
    (∀ c ∈ t, Q c) ↔ AllPoints (fun c ↦ c.val < 0x80 ∨ Q c) value :=
  forall_mem_printAt_iff hQ hlayout value 0 t hprint

/-- A document holds a surrogate exactly if a text or a key of its value does. -/
theorem isScalar_print_iff (hlayout : layout.IsStandard) {value : Json}
    (hprint : print layout value = .ok t) :
    t.IsScalar ↔ AllPoints (fun c ↦ c.isSurrogate = false) value := by
  have hascii : ∀ c : CodePoint, c.val < 0x80 → c.isSurrogate = false := by
    intro c hc
    rw [CodePoint.isSurrogate, Bool.and_eq_false_iff, decide_eq_false_iff_not]
    exact .inl (by omega)
  have hpoint : (fun c : CodePoint ↦ c.val < 0x80 ∨ c.isSurrogate = false) =
      fun c ↦ c.isSurrogate = false :=
    funext fun c ↦ propext ⟨fun h ↦ h.elim (hascii c) id, .inr⟩
  have hiff := forall_mem_print_iff (Q := fun c ↦ c.isSurrogate = false)
    (fun c hc ↦ hascii c hc.1) hlayout hprint
  rwa [hpoint] at hiff

/-- Line breaks of a document are single line feeds. -/
theorem val_ne_of_mem_print (hlayout : layout.IsStandard) {value : Json}
    (hprint : print layout value = .ok t) : ∀ c ∈ t, c.val ≠ 0x0D := by
  refine (forall_mem_print_iff (Q := fun c ↦ c.val ≠ 0x0D) (fun c hc ↦ hc.2) hlayout hprint).mpr ?_
  intro part _ s _ c _
  omega

/-! ### Documents in UTF-8 -/

/-- Every integer of a value is within the digit limit, and no text of it holds a surrogate. -/
def IsWritable (value : Json) : Prop :=
  FitsLimit value ∧ AllPoints (fun c ↦ c.isSurrogate = false) value

/-- The document of a value has bytes exactly if the value is writable. -/
theorem encode_print_ok_iff (hlayout : layout.IsStandard) {value : Json} :
    (∃ t content, print layout value = .ok t ∧ Utf8.encode t = .ok content) ↔
      IsWritable value := by
  constructor
  · rintro ⟨t, content, hprint, hencode⟩
    exact ⟨print_ok_iff.mp ⟨t, hprint⟩,
      (isScalar_print_iff hlayout hprint).mp (Utf8.isScalar_of_encode hencode).1⟩
  · rintro ⟨hfits, hscalar⟩
    obtain ⟨t, hprint⟩ := print_ok_iff.mpr hfits
    exact ⟨t, _, hprint, Utf8.encode_of_isScalar ((isScalar_print_iff hlayout hprint).mpr hscalar)⟩

theorem isWritable_object {fields : List (Text × Json)} :
    IsWritable (.object fields) ↔
      (∀ key ∈ Fields.keys fields, key.IsScalar) ∧ ∀ field ∈ fields, IsWritable field.2 := by
  rw [IsWritable, fitsLimit_object, allPoints_object]
  exact ⟨fun h ↦ ⟨h.2.1, fun field hfield ↦ ⟨h.1 field hfield, h.2.2 field hfield⟩⟩,
    fun h ↦ ⟨fun field hfield ↦ (h.2 field hfield).1, h.1, fun field hfield ↦ (h.2 field hfield).2⟩⟩

@[simp] theorem isWritable_object_nil : IsWritable (.object []) := by
  rw [isWritable_object]
  simp [Fields.keys]

@[simp] theorem isWritable_object_cons {key : Text} {value : Json} {fields : List (Text × Json)} :
    IsWritable (.object ((key, value) :: fields)) ↔
      key.IsScalar ∧ IsWritable value ∧ IsWritable (.object fields) := by
  simp only [isWritable_object, Fields.keys, List.map_cons, List.forall_mem_cons]
  tauto

theorem isWritable_array {items : List Json} :
    IsWritable (.array items) ↔ ∀ item ∈ items, IsWritable item := by
  rw [IsWritable, fitsLimit_array, allPoints_array]
  exact forall₂_and.symm

@[simp] theorem isWritable_string : IsWritable (.string t) ↔ t.IsScalar := by
  rw [IsWritable, and_iff_right fitsLimit_string, allPoints_string]
  rfl

@[simp] theorem isWritable_null : IsWritable .null :=
  ⟨fitsLimit_null, everywhere_null.mpr (by simp [ownTexts])⟩

@[simp] theorem isWritable_int {n : Int} :
    IsWritable (.number (.int n)) ↔ Number.fitsLimit n = true := by
  rw [IsWritable, FitsLimit, everywhere_number]
  exact and_iff_left (everywhere_number.mpr (by simp [ownTexts]))

end Json

end StoryCatalog
