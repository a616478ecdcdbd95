import StoryCatalog.Proofs.Fields
import StoryCatalog.Proofs.Json.Number
import StoryCatalog.Proofs.Json.Printing
import StoryCatalog.Proofs.Json.String

/-!
# Documents read back

The document of a value reads back as the value (`read_print`), provided that its keys are distinct
and its numbers are in their form. The count that bounds the reader is enough because every value
and every member takes at least one code point.
-/

namespace StoryCatalog

namespace Json

variable {layout : Layout} {depth : Nat} {t : Text}

/-! ### Between the tokens -/

theorem skipSpace_append (offset : Nat) {spaces : Text} (rest : Text)
    (hspaces : ∀ c ∈ spaces, Cursor.isSpace c = true)
    (hrest : ∀ c ∈ rest.head?, Cursor.isSpace c = false) :
    ∃ offset', Cursor.skipSpace ⟨offset, spaces ++ rest⟩ = ⟨offset', rest⟩ := by
  refine ⟨offset + spaces.length, ?_⟩
  rw [Cursor.skipSpace, Text.takeWhile_append hspaces hrest, Cursor.advance, List.drop_left]

theorem skipSpace_token {c : CodePoint} (hc : Cursor.isSpace c = false) (offset : Nat)
    (rest : Text) :
    Cursor.skipSpace ⟨offset, c :: rest⟩ = ⟨offset, c :: rest⟩ := by
  simp [Cursor.skipSpace, Cursor.advance, hc]

theorem advance_cons (offset : Nat) (c : CodePoint) (rest : Text) :
    Cursor.advance ⟨offset, c :: rest⟩ 1 = ⟨offset + 1, rest⟩ := rfl

theorem sees_mark {word : String} {d : CodePoint} (hword : Text.ofString word = [d]) (offset : Nat)
    (c : CodePoint) (rest : Text) : Cursor.sees ⟨offset, c :: rest⟩ word = (d == c) := by
  rw [Cursor.sees, Text.startsWith, hword, List.isPrefixOf, List.isPrefixOf, Bool.and_true]

theorem isSpace_of_mem_lineBreak {c : CodePoint} (h : c ∈ layout.lineBreak depth) :
    Cursor.isSpace c = true := by
  cases layout with
  | line comma colon => simp [Layout.lineBreak] at h
  | indented width =>
    rcases List.mem_cons.mp h with rfl | hmem
    · rfl
    · rw [List.eq_of_mem_replicate hmem]
      rfl

theorem exists_comma_eq (hlayout : layout.IsStandard) (depth : Nat) :
    ∃ spaces, layout.comma depth = CodePoint.ofChar ',' :: spaces ∧
      ∀ c ∈ spaces, Cursor.isSpace c = true := by
  cases layout with
  | line comma colon =>
    obtain ⟨⟨n, rfl⟩, -⟩ := hlayout
    refine ⟨_, rfl, ?_⟩
    intro c hc
    rw [List.eq_of_mem_replicate hc]
    rfl
  | indented width => exact ⟨_, rfl, fun c ↦ isSpace_of_mem_lineBreak⟩

theorem exists_colon_eq (hlayout : layout.IsStandard) :
    ∃ spaces, layout.colon = CodePoint.ofChar ':' :: spaces ∧
      ∀ c ∈ spaces, Cursor.isSpace c = true := by
  cases layout with
  | line comma colon =>
    obtain ⟨-, n, rfl⟩ := hlayout
    refine ⟨_, rfl, ?_⟩
    intro c hc
    rw [List.eq_of_mem_replicate hc]
    rfl
  | indented width => exact ⟨_, rfl, by decide⟩

/-- Whether a code point can stand at the start of a value. -/
def IsHead (c : CodePoint) : Prop :=
  Cursor.isSpace c = false ∧ c.val ≠ 0x5D ∧ c.val < 0x80

instance (c : CodePoint) : Decidable (IsHead c) := inferInstanceAs (Decidable (_ ∧ _ ∧ _))

/-- The document of a value begins with a token. -/
theorem exists_head_printAt {value : Json} (hproper : IsProper value)
    (hprint : printAt layout depth value = .ok t) : ∃ c rest, t = c :: rest ∧ IsHead c := by
  cases value with
  | null =>
    cases hprint
    exact ⟨_, _, rfl, by decide⟩
  | bool b =>
    cases hprint
    cases b <;> exact ⟨_, _, rfl, by decide⟩
  | number n =>
    have hn : ∀ x, n = .float x → x.IsCanonical := by
      rintro x rfl
      exact everywhere_number.mp hproper
    obtain ⟨c, more, rfl, hlow, hhigh⟩ := exists_head_printNumber hprint hn
    refine ⟨c, more, rfl, ?_, by omega, by omega⟩
    simp only [Cursor.isSpace, Bool.or_eq_false_iff, beq_eq_false_iff_ne]
    omega
  | string s =>
    cases hprint
    exact ⟨_, _, rfl, by decide⟩
  | array items =>
    cases items with
    | nil =>
      cases hprint
      exact ⟨_, _, rfl, by decide⟩
    | cons item rest =>
      obtain ⟨first, more, -, -, rfl⟩ := printAt_array_ok_iff.mp hprint
      exact ⟨CodePoint.ofChar '[', _, rfl, by decide⟩
  | object fields =>
    cases fields with
    | nil =>
      cases hprint
      exact ⟨_, _, rfl, by decide⟩
    | cons field rest =>
      obtain ⟨key, value⟩ := field
      obtain ⟨first, more, -, -, rfl⟩ := printAt_object_ok_iff.mp hprint
      exact ⟨CodePoint.ofChar '\x7b', _, rfl, by decide⟩

theorem isSpace_head_printAt {value : Json} (hproper : IsProper value)
    (hprint : printAt layout depth value = .ok t) (rest : Text) :
    ∀ c ∈ (t ++ rest).head?, Cursor.isSpace c = false := by
  obtain ⟨c, tail, rfl, hc⟩ := exists_head_printAt hproper hprint
  intro d hd
  cases hd
  exact hc.1

theorem isSpace_head_printString (s rest : Text) :
    ∀ c ∈ (printString s ++ rest).head?, Cursor.isSpace c = false := by
  intro c hc
  cases hc
  rfl

/-! ### What may follow a value -/

theorem endsNumber_append {s t : Text} (hs : EndsNumber s) (ht : EndsNumber t) :
    EndsNumber (s ++ t) := by
  cases s with
  | nil => exact ht
  | cons c rest => exact hs

theorem endsNumber_cons {c : CodePoint} (t : Text)
    (h : c.isDigit = false ∧ c.val ≠ 0x2E ∧ c.val ≠ 0x65 ∧ c.val ≠ 0x45) : EndsNumber (c :: t) := by
  intro d hd
  cases hd
  exact h

theorem endsNumber_lineBreak : EndsNumber (layout.lineBreak depth) := by
  cases layout with
  | line comma colon => simp [EndsNumber, Layout.lineBreak]
  | indented width => exact endsNumber_cons _ (by decide)

/-! ### Arrays and objects -/

/-- A value is read back, and what follows its document is left. -/
def ReadsBack (layout : Layout) (value : Json) : Prop :=
  ∀ depth t, printAt layout depth value = .ok t → ∀ fuel offset rest, t.length ≤ fuel →
    EndsNumber rest → ∃ end', readValue fuel ⟨offset, t ++ rest⟩ = .ok (value, ⟨end', rest⟩)

/-- An item is read, and what is read next depends on what follows it. -/
private theorem readItems_succ {item : Json} (h : ReadsBack layout item) {first : Text}
    (hfirst : printAt layout depth item = .ok first) {fuel : Nat} (hfuel : first.length ≤ fuel)
    {rest : Text} (hrest : EndsNumber rest) (offset : Nat) (read : List Json) :
    ∃ offset', readItems (fuel + 1) ⟨offset, first ++ rest⟩ read =
      if (Cursor.skipSpace ⟨offset', rest⟩).sees "]" then
        .ok (.array (item :: read).reverse, (Cursor.skipSpace ⟨offset', rest⟩).advance 1)
      else if (Cursor.skipSpace ⟨offset', rest⟩).sees "," then
        readItems fuel ((Cursor.skipSpace ⟨offset', rest⟩).advance 1).skipSpace (item :: read)
      else .error (.fault .comma (Cursor.skipSpace ⟨offset', rest⟩).offset) := by
  obtain ⟨offset', hvalue⟩ := h depth first hfirst fuel offset rest hfuel hrest
  refine ⟨offset', ?_⟩
  rw [readItems, hvalue]

/-- The items of an array are read back from the first one on. -/
theorem readItems_print (hlayout : layout.IsStandard) {item : Json} {items : List Json}
    (hproper : ∀ v ∈ item :: items, IsProper v) (h : ∀ v ∈ item :: items, ReadsBack layout v)
    {first more spaces : Text} (hfirst : printAt layout depth item = .ok first)
    (hmore : printItems layout depth items = .ok more)
    (hspaces : ∀ c ∈ spaces, Cursor.isSpace c = true) (hends : EndsNumber spaces)
    (fuel offset : Nat) (hfuel : (first ++ more).length < fuel) (after : Text) (read : List Json) :
    ∃ end', readItems fuel
        ⟨offset, first ++ (more ++ (spaces ++ CodePoint.ofChar ']' :: after))⟩ read =
      .ok (.array (read.reverse ++ item :: items), ⟨end', after⟩) := by
  induction items generalizing item first more fuel offset read with
  | nil =>
    cases hmore
    obtain ⟨fuel, rfl⟩ := Nat.exists_eq_succ_of_ne_zero (Nat.ne_zero_of_lt hfuel)
    have hclose : EndsNumber (spaces ++ CodePoint.ofChar ']' :: after) :=
      endsNumber_append hends (endsNumber_cons _ (by decide))
    have hlength : first.length ≤ fuel := by
      simp at hfuel
      omega
    obtain ⟨end₁, hitem⟩ := readItems_succ (h item List.mem_cons_self) hfirst hlength hclose offset
      read
    obtain ⟨end₂, hskip⟩ := skipSpace_append end₁ (CodePoint.ofChar ']' :: after) hspaces
      (by simp; rfl)
    refine ⟨end₂ + 1, ?_⟩
    rw [List.nil_append, hitem, hskip, sees_mark (d := CodePoint.ofChar ']') rfl,
      if_pos (by decide), advance_cons, List.reverse_cons]
  | cons next rest ih =>
    obtain ⟨hhead, hrest⟩ := List.forall_mem_cons.mp h
    obtain ⟨first', more', hfirst', hmore', rfl⟩ := printItems_cons_ok_iff.mp hmore
    obtain ⟨blanks, hcomma, hblanks⟩ := exists_comma_eq hlayout depth
    obtain ⟨fuel, rfl⟩ := Nat.exists_eq_succ_of_ne_zero (Nat.ne_zero_of_lt hfuel)
    have htext : Text.concat [layout.comma depth, first', more'] ++
        (spaces ++ CodePoint.ofChar ']' :: after) = CodePoint.ofChar ',' ::
          (blanks ++ (first' ++ (more' ++ (spaces ++ CodePoint.ofChar ']' :: after)))) := by
      simp [Text.concat, hcomma]
    have hlength : first.length ≤ fuel ∧ (first' ++ more').length < fuel := by
      simp only [Text.concat, hcomma, List.flatten_cons, List.flatten_nil, List.append_nil,
        List.length_append, List.length_cons] at hfuel ⊢
      omega
    obtain ⟨end₁, hitem⟩ := readItems_succ hhead hfirst hlength.1
      (endsNumber_cons (c := CodePoint.ofChar ',') (blanks ++ (first' ++ (more' ++
        (spaces ++ CodePoint.ofChar ']' :: after)))) (by decide)) offset read
    obtain ⟨end₂, hskip⟩ := skipSpace_append (end₁ + 1) _ hblanks
      (isSpace_head_printAt (hproper next (by simp)) hfirst' _)
    obtain ⟨end', hread⟩ := ih (fun v hv ↦ hproper v (List.mem_cons_of_mem item hv)) hrest hfirst'
      hmore' fuel end₂ hlength.2 (item :: read)
    refine ⟨end', ?_⟩
    rw [htext, hitem, skipSpace_token rfl, sees_mark (d := CodePoint.ofChar ']') rfl,
      if_neg (by decide), sees_mark (d := CodePoint.ofChar ',') rfl, if_pos (by decide),
      advance_cons, hskip, hread, List.reverse_cons, List.append_assoc, List.singleton_append]

theorem printString_append (s rest : Text) : printString s ++ rest =
    CodePoint.ofChar '"' :: (s.flatMap escaped ++ CodePoint.ofChar '"' :: rest) := by
  simp [printString]

/-- A key and its value are read, and what is read next depends on what follows them. -/
private theorem readMembers_succ (hlayout : layout.IsStandard) {value : Json} {first : Text}
    (hproper : IsProper value) (h : ReadsBack layout value)
    (hfirst : printAt layout depth value = .ok first) {fuel : Nat} (hfuel : first.length ≤ fuel)
    {rest : Text} (hrest : EndsNumber rest) (key : Text) (offset : Nat)
    (read : List (Text × Json)) :
    ∃ offset', readMembers (fuel + 1)
        ⟨offset, printString key ++ (layout.colon ++ (first ++ rest))⟩ read =
      if (Cursor.skipSpace ⟨offset', rest⟩).sees "\x7d" then
        .ok (.object (Fields.ofList ((key, value) :: read).reverse),
          (Cursor.skipSpace ⟨offset', rest⟩).advance 1)
      else if (Cursor.skipSpace ⟨offset', rest⟩).sees "," then
        readMembers fuel ((Cursor.skipSpace ⟨offset', rest⟩).advance 1).skipSpace
          ((key, value) :: read)
      else .error (.fault .comma (Cursor.skipSpace ⟨offset', rest⟩).offset) := by
  obtain ⟨gap, hcolon, hgap⟩ := exists_colon_eq hlayout
  obtain ⟨end₁, hkey⟩ := readString_flatMap offset (offset + 1) key
    (layout.colon ++ (first ++ rest)) []
  obtain ⟨end₂, hskip⟩ := skipSpace_append (end₁ + 1) (first ++ rest) hgap
    (isSpace_head_printAt hproper hfirst rest)
  obtain ⟨end₃, hvalue⟩ := h depth _ hfirst fuel end₂ rest hfuel hrest
  refine ⟨end₃, ?_⟩
  rw [printString_append, readMembers, sees_mark (d := CodePoint.ofChar '"') rfl]
  rw [if_neg (by decide), List.drop_one, List.tail_cons, hkey]
  dsimp only
  rw [hcolon, List.cons_append, skipSpace_token rfl, sees_mark (d := CodePoint.ofChar ':') rfl,
    if_neg (by decide), advance_cons, hskip, hvalue]
  rfl

/-- The members of an object are read back from the first key on. -/
theorem readMembers_print (hlayout : layout.IsStandard) {key : Text} {value : Json}
    {fields : List (Text × Json)} (hproper : ∀ field ∈ (key, value) :: fields, IsProper field.2)
    (h : ∀ field ∈ (key, value) :: fields, ReadsBack layout field.2)
    {first more spaces : Text} (hfirst : printAt layout depth value = .ok first)
    (hmore : printFields layout depth fields = .ok more)
    (hspaces : ∀ c ∈ spaces, Cursor.isSpace c = true) (hends : EndsNumber spaces)
    (fuel offset : Nat) (hfuel : (first ++ more).length < fuel) (after : Text)
    (read : List (Text × Json)) :
    ∃ end', readMembers fuel ⟨offset, printString key ++ (layout.colon ++ (first ++ (more ++
        (spaces ++ CodePoint.ofChar '\x7d' :: after))))⟩ read =
      .ok (.object (Fields.ofList (read.reverse ++ (key, value) :: fields)), ⟨end', after⟩) := by
  induction fields generalizing key value first more fuel offset read with
  | nil =>
    cases hmore
    obtain ⟨fuel, rfl⟩ := Nat.exists_eq_succ_of_ne_zero (Nat.ne_zero_of_lt hfuel)
    have hclose : EndsNumber (spaces ++ CodePoint.ofChar '\x7d' :: after) :=
      endsNumber_append hends (endsNumber_cons _ (by decide))
    have hlength : first.length ≤ fuel := by
      simp at hfuel
      omega
    obtain ⟨end₁, hmember⟩ := readMembers_succ hlayout (hproper _ List.mem_cons_self)
      (h _ List.mem_cons_self) hfirst hlength hclose key offset read
    obtain ⟨end₂, hskip⟩ := skipSpace_append end₁ (CodePoint.ofChar '\x7d' :: after) hspaces
      (by simp; rfl)
    refine ⟨end₂ + 1, ?_⟩
    rw [List.nil_append, hmember, hskip, sees_mark (d := CodePoint.ofChar '\x7d') rfl,
      if_pos (by decide), advance_cons, List.reverse_cons]
  | cons next rest ih =>
    obtain ⟨key', value'⟩ := next
    obtain ⟨hfield, hrest⟩ := List.forall_mem_cons.mp h
    obtain ⟨first', more', hfirst', hmore', rfl⟩ := printFields_cons_ok_iff.mp hmore
    obtain ⟨blanks, hcomma, hblanks⟩ := exists_comma_eq hlayout depth
    obtain ⟨fuel, rfl⟩ := Nat.exists_eq_succ_of_ne_zero (Nat.ne_zero_of_lt hfuel)
    have htext : Text.concat [layout.comma depth, printString key', layout.colon, first', more'] ++
        (spaces ++ CodePoint.ofChar '\x7d' :: after) = CodePoint.ofChar ',' ::
          (blanks ++ (printString key' ++ (layout.colon ++ (first' ++ (more' ++
            (spaces ++ CodePoint.ofChar '\x7d' :: after)))))) := by
      simp [Text.concat, hcomma]
    have hlength : first.length ≤ fuel ∧ (first' ++ more').length < fuel := by
      simp only [Text.concat, hcomma, List.flatten_cons, List.flatten_nil, List.append_nil,
        List.length_append, List.length_cons] at hfuel ⊢
      omega
    obtain ⟨end₁, hmember⟩ := readMembers_succ hlayout (hproper _ List.mem_cons_self) hfield hfirst
      hlength.1 (endsNumber_cons (c := CodePoint.ofChar ',') (blanks ++ (printString key' ++
        (layout.colon ++ (first' ++ (more' ++ (spaces ++ CodePoint.ofChar '\x7d' :: after))))))
        (by decide)) key offset read
    obtain ⟨end₂, hskip⟩ := skipSpace_append (end₁ + 1) (printString key' ++ (layout.colon ++
      (first' ++ (more' ++ (spaces ++ CodePoint.ofChar '\x7d' :: after))))) hblanks
      (isSpace_head_printString key' _)
    obtain ⟨end', hread⟩ := ih (fun v hv ↦ hproper v (List.mem_cons_of_mem _ hv)) hrest hfirst'
      hmore' fuel end₂ hlength.2 ((key, value) :: read)
    refine ⟨end', ?_⟩
    rw [htext, hmember, skipSpace_token rfl, sees_mark (d := CodePoint.ofChar '\x7d') rfl,
      if_neg (by decide), sees_mark (d := CodePoint.ofChar ',') rfl, if_pos (by decide),
      advance_cons, hskip, hread, List.reverse_cons, List.append_assoc, List.singleton_append]

/-! ### Values -/

private theorem readsBack_number {n : Number} (hproper : IsProper (.number n)) :
    ReadsBack layout (.number n) := by
  intro depth t hprint fuel offset rest hfuel hrest
  rw [printAt] at hprint
  have hn : ∀ x, n = .float x → x.IsCanonical := by
    rintro x rfl
    exact everywhere_number.mp hproper
  obtain ⟨c, more, rfl, hlow, hhigh⟩ := exists_head_printNumber hprint hn
  obtain ⟨fuel, rfl⟩ := Nat.exists_eq_succ_of_ne_zero (Nat.ne_zero_of_lt hfuel)
  obtain ⟨end', hread⟩ := readScalar_printNumber offset hprint hn hrest
  refine ⟨end', ?_⟩
  rw [List.cons_append] at hread ⊢
  rw [readValue]
  dsimp only
  rw [if_neg (by omega), if_neg (by omega), if_neg (by omega), hread]

private theorem readsBack_array (hlayout : layout.IsStandard) {items : List Json}
    (hproper : ∀ item ∈ items, IsProper item) (h : ∀ item ∈ items, ReadsBack layout item) :
    ReadsBack layout (.array items) := by
  intro depth t hprint fuel offset rest hfuel hrest
  cases items with
  | nil =>
    cases hprint
    obtain ⟨fuel, rfl⟩ := Nat.exists_eq_succ_of_ne_zero (Nat.ne_zero_of_lt hfuel)
    exact ⟨offset + 1 + 0 + 1, rfl⟩
  | cons item items =>
    obtain ⟨first, more, hfirst, hmore, rfl⟩ := printAt_array_ok_iff.mp hprint
    obtain ⟨fuel, rfl⟩ := Nat.exists_eq_succ_of_ne_zero (Nat.ne_zero_of_lt hfuel)
    have htext : Text.concat ["[", layout.lineBreak (depth + 1), first, more,
        layout.lineBreak depth, "]"] ++ rest = CodePoint.ofChar '[' ::
          (layout.lineBreak (depth + 1) ++ (first ++ (more ++
            (layout.lineBreak depth ++ CodePoint.ofChar ']' :: rest)))) := by
      simp [Text.concat, Text.ofString]
    have hlength : (first ++ more).length < fuel := by
      simp only [Text.concat, List.flatten_cons, List.flatten_nil, List.length_append,
        show (Text.ofString "[").length = 1 from rfl, show (Text.ofString "]").length = 1 from rfl]
        at hfuel ⊢
      omega
    obtain ⟨c, tail, rfl, hc⟩ := exists_head_printAt (hproper item List.mem_cons_self) hfirst
    obtain ⟨end₁, hskip⟩ := skipSpace_append (offset + 1) (c :: tail ++ (more ++
      (layout.lineBreak depth ++ CodePoint.ofChar ']' :: rest)))
      (fun d ↦ isSpace_of_mem_lineBreak)
      (isSpace_head_printAt (hproper item List.mem_cons_self) hfirst _)
    obtain ⟨end', hread⟩ := readItems_print hlayout hproper h hfirst hmore
      (fun d ↦ isSpace_of_mem_lineBreak) endsNumber_lineBreak fuel end₁ hlength rest []
    have hclose : (CodePoint.ofChar ']' == c) = false := by
      rw [beq_eq_false_iff_ne]
      rintro rfl
      exact hc.2.1 rfl
    refine ⟨end', ?_⟩
    rw [htext, readValue]
    dsimp only
    rw [if_neg (by decide), if_neg (by decide), if_pos (by rfl), advance_cons, hskip,
      List.cons_append, sees_mark (d := CodePoint.ofChar ']') rfl, hclose,
      if_neg Bool.false_ne_true]
    exact hread

private theorem readsBack_object (hlayout : layout.IsStandard) {fields : List (Text × Json)}
    (hkeys : (Fields.keys fields).Nodup) (hproper : ∀ field ∈ fields, IsProper field.2)
    (h : ∀ field ∈ fields, ReadsBack layout field.2) : ReadsBack layout (.object fields) := by
  intro depth t hprint fuel offset rest hfuel hrest
  cases fields with
  | nil =>
    cases hprint
    obtain ⟨fuel, rfl⟩ := Nat.exists_eq_succ_of_ne_zero (Nat.ne_zero_of_lt hfuel)
    exact ⟨offset + 1 + 0 + 1, rfl⟩
  | cons field fields =>
    obtain ⟨key, value⟩ := field
    obtain ⟨first, more, hfirst, hmore, rfl⟩ := printAt_object_ok_iff.mp hprint
    obtain ⟨fuel, rfl⟩ := Nat.exists_eq_succ_of_ne_zero (Nat.ne_zero_of_lt hfuel)
    have htext : Text.concat ["\x7b", layout.lineBreak (depth + 1), printString key, layout.colon,
        first, more, layout.lineBreak depth, "\x7d"] ++ rest = CodePoint.ofChar '\x7b' ::
          (layout.lineBreak (depth + 1) ++ (printString key ++ (layout.colon ++ (first ++ (more ++
            (layout.lineBreak depth ++ CodePoint.ofChar '\x7d' :: rest)))))) := by
      simp [Text.concat, Text.ofString]
    have hlength : (first ++ more).length < fuel := by
      simp only [Text.concat, List.flatten_cons, List.flatten_nil, List.length_append,
        show (Text.ofString "\x7b").length = 1 from rfl,
        show (Text.ofString "\x7d").length = 1 from rfl] at hfuel ⊢
      omega
    obtain ⟨end₁, hskip⟩ := skipSpace_append (offset + 1) (printString key ++
      (layout.colon ++ (first ++ (more ++ (layout.lineBreak depth ++
        CodePoint.ofChar '\x7d' :: rest))))) (fun d ↦ isSpace_of_mem_lineBreak)
      (isSpace_head_printString key _)
    obtain ⟨end', hread⟩ := readMembers_print hlayout hproper h hfirst hmore
      (fun d ↦ isSpace_of_mem_lineBreak) endsNumber_lineBreak fuel end₁ hlength rest []
    refine ⟨end', ?_⟩
    rw [htext, readValue]
    dsimp only
    rw [if_neg (by decide), if_pos (by rfl), advance_cons, hskip, printString_append,
      sees_mark (d := CodePoint.ofChar '\x7d') rfl, if_neg (by decide), ← printString_append, hread,
      List.reverse_nil, List.nil_append, Fields.ofList_of_nodup hkeys]

/-- Every value with distinct keys and numbers in their form is read back. -/
theorem readsBack (hlayout : layout.IsStandard) (value : Json) (hproper : IsProper value) :
    ReadsBack layout value := by
  induction value using Json.induction with
  | null =>
    intro depth t hprint fuel offset rest hfuel hrest
    cases hprint
    obtain ⟨fuel, rfl⟩ := Nat.exists_eq_succ_of_ne_zero (Nat.ne_zero_of_lt hfuel)
    exact ⟨offset + 4, rfl⟩
  | bool b =>
    intro depth t hprint fuel offset rest hfuel hrest
    cases hprint
    cases b with
    | true =>
      obtain ⟨fuel, rfl⟩ := Nat.exists_eq_succ_of_ne_zero (Nat.ne_zero_of_lt hfuel)
      exact ⟨offset + 4, rfl⟩
    | false =>
      obtain ⟨fuel, rfl⟩ := Nat.exists_eq_succ_of_ne_zero (Nat.ne_zero_of_lt hfuel)
      exact ⟨offset + 5, rfl⟩
  | number n => exact readsBack_number hproper
  | string s =>
    intro depth t hprint fuel offset rest hfuel hrest
    cases hprint
    obtain ⟨fuel, rfl⟩ := Nat.exists_eq_succ_of_ne_zero (Nat.ne_zero_of_lt hfuel)
    obtain ⟨end', hread⟩ := readString_flatMap offset (offset + 1) s rest []
    refine ⟨end', ?_⟩
    rw [printString_append, readValue]
    dsimp only
    rw [if_pos (by rfl), hread]
    rfl
  | array items ih =>
    have hitems := isProper_array.mp hproper
    exact readsBack_array hlayout hitems fun item hitem ↦ ih item hitem (hitems item hitem)
  | object fields ih =>
    obtain ⟨hkeys, hfields⟩ := isProper_object.mp hproper
    exact readsBack_object hlayout hkeys hfields fun field hfield ↦
      ih field hfield (hfields field hfield)

/-- The document of a value is read back as the value. -/
theorem read_print (hlayout : layout.IsStandard) {value : Json} (hproper : IsProper value)
    (hprint : print layout value = .ok t) : read t = .ok value := by
  obtain ⟨c, tail, rfl, hc⟩ := exists_head_printAt hproper hprint
  obtain ⟨end', hvalue⟩ := readsBack hlayout value hproper 0 (c :: tail) hprint
    (2 * (c :: tail).length + 2) 0 [] (by omega) (by simp [EndsNumber])
  have hmark : ¬ (c :: tail).head?.map (·.val) = some 0xFEFF := by
    rw [List.head?_cons, Option.map_some, Option.some.injEq]
    exact (Nat.lt_trans hc.2.2 (by decide)).ne
  rw [List.append_nil] at hvalue
  rw [read, readUnmarked, if_neg hmark, readAll, skipSpace_token hc.1, hvalue]
  rfl

end Json

end StoryCatalog
