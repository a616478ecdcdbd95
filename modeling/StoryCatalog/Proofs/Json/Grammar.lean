import StoryCatalog.Proofs.Json.RoundTrip

/-!
# The grammar of JSON

The texts that are JSON documents, by the rules of the standard and without regard to what the
reader takes or what is printed. A value whose numbers are finite is printed as such a document
(`isDocument_print`).
-/

namespace StoryCatalog.Json

namespace Grammar

/-- Space between tokens. -/
def IsSpace (t : Text) : Prop := ∀ c ∈ t, Cursor.isSpace c = true

/-! ### Numbers -/

/-- At least one digit. -/
def IsDigits (t : Text) : Prop := t ≠ [] ∧ ∀ c ∈ t, c.isDigit = true

/-- The fraction of a number: digits behind a point, or nothing. -/
inductive IsFraction : Text → Prop where
  | none : IsFraction []
  | digits {t : Text} : IsDigits t → IsFraction (CodePoint.ofChar '.' :: t)

/-- The sign of an exponent, which may be missing. -/
inductive IsSign : Text → Prop where
  | none : IsSign []
  | plus : IsSign "+"
  | minus : IsSign "-"

/-- The exponent of a number: digits behind a mark and a sign, or nothing. -/
inductive IsExponent : Text → Prop where
  | none : IsExponent []
  | digits {mark : CodePoint} {sign t : Text} : mark.val = 0x65 ∨ mark.val = 0x45 → IsSign sign →
    IsDigits t → IsExponent (mark :: (sign ++ t))

/-- The numbers: an integer without needless zeros, possibly behind a minus, with a fraction and an
exponent or without. -/
inductive IsNumber : Text → Prop where
  | mk {whole part exponent : Text} (negative : Bool) : Decimal.IsWhole whole → IsFraction part →
    IsExponent exponent → IsNumber (signed negative (whole ++ part ++ exponent))

/-! ### Strings -/

/-- The code points that may stand behind a backslash by themselves. -/
def shortEscapes : Text := "\"\\/bfnrt"

/-- What stands for a code point in a string, or for half of a pair. -/
inductive IsCharacter : Text → Prop where
  | plain {c : CodePoint} : 0x20 ≤ c.val → c.val ≠ 0x22 → c.val ≠ 0x5C → IsCharacter [c]
  | short {c : CodePoint} : c ∈ shortEscapes → IsCharacter [CodePoint.ofChar '\\', c]
  | unit {digits : Text} : digits.length = 4 → (∀ d ∈ digits, d.isHexDigit = true) →
    IsCharacter (CodePoint.ofChar '\\' :: CodePoint.ofChar 'u' :: digits)

/-- What stands between the quotes of a string. -/
inductive AreCharacters : Text → Prop where
  | nil : AreCharacters []
  | cons {first rest : Text} :
    IsCharacter first → AreCharacters rest → AreCharacters (first ++ rest)

/-- The strings. -/
inductive IsString : Text → Prop where
  | quoted {t : Text} : AreCharacters t →
    IsString (CodePoint.ofChar '"' :: (t ++ [CodePoint.ofChar '"']))

/-! ### Values -/

/-- What a part of a document is: a value, a value with space around it, or a member of an object,
the latter two also in rows that commas separate. -/
inductive Symbol where
  | value | element | elements | member | members

/-- The rules of the grammar. -/
inductive Derives : Symbol → Text → Prop where
  | null : Derives .value "null"
  | true : Derives .value "true"
  | false : Derives .value "false"
  | number {t : Text} : IsNumber t → Derives .value t
  | string {t : Text} : IsString t → Derives .value t
  | emptyArray {space : Text} : IsSpace space →
    Derives .value (CodePoint.ofChar '[' :: (space ++ [CodePoint.ofChar ']']))
  | array {t : Text} : Derives .elements t →
    Derives .value (CodePoint.ofChar '[' :: (t ++ [CodePoint.ofChar ']']))
  | emptyObject {space : Text} : IsSpace space →
    Derives .value (CodePoint.ofChar '\x7b' :: (space ++ [CodePoint.ofChar '\x7d']))
  | object {t : Text} : Derives .members t →
    Derives .value (CodePoint.ofChar '\x7b' :: (t ++ [CodePoint.ofChar '\x7d']))
  | element {before t after : Text} : IsSpace before → Derives .value t → IsSpace after →
    Derives .element (before ++ t ++ after)
  | last {t : Text} : Derives .element t → Derives .elements t
  | more {first rest : Text} : Derives .element first → Derives .elements rest →
    Derives .elements (first ++ CodePoint.ofChar ',' :: rest)
  | member {before key between value : Text} : IsSpace before → IsString key → IsSpace between →
    Derives .element value →
    Derives .member (before ++ key ++ between ++ CodePoint.ofChar ':' :: value)
  | lastMember {t : Text} : Derives .member t → Derives .members t
  | moreMembers {first rest : Text} : Derives .member first → Derives .members rest →
    Derives .members (first ++ CodePoint.ofChar ',' :: rest)

/-- A document is a value with space around it. -/
def IsDocument (t : Text) : Prop := Derives .element t

/-! ### Printed numbers -/

theorem isFraction_fraction {part : Text} (h : ∀ c ∈ part, c.isDigit = true) :
    IsFraction (Decimal.fraction part) := by
  rw [Decimal.fraction]
  split
  · exact .none
  · next hne => exact .digits ⟨by simpa using hne, h⟩

theorem isExponent_of_isPower {power : Text} {p : ℤ} (h : Decimal.IsPower power p) :
    IsExponent power := by
  cases h with
  | none => exact .none
  | positive hne hdigits => exact .digits (.inl rfl) .plus ⟨hne, hdigits⟩
  | negative hne hdigits => exact .digits (.inl rfl) .minus ⟨hne, hdigits⟩

/-- The text of a finite number is a number of the grammar. -/
theorem isNumber_printNumber {n : Number} {t : Text} (hproper : (Json.number n).IsProper)
    (hfinite : (Json.number n).IsFinite) (hprint : printNumber n = .ok t) : IsNumber t := by
  cases n with
  | int n =>
    rw [printNumber] at hprint
    split at hprint
    · cases hprint
      have hwhole := Decimal.isWhole_ofNat n.natAbs
      have hnumber := IsNumber.mk (decide (n < 0)) hwhole .none .none
      have htext : signed (decide (n < 0)) (Text.ofNat n.natAbs ++ [] ++ []) = Text.ofInt n := by
        by_cases hn : n < 0 <;> simp [Text.ofInt, signed, hn]
      rwa [htext] at hnumber
    · cases hprint
  | float x =>
    obtain ⟨negative, m, e, rfl⟩ := isFinite_float.mp hfinite
    rw [printNumber, Except.ok.injEq] at hprint
    obtain ⟨body, d, htext, hspelling, -⟩ :=
      Binary64.exists_isSpelling "Infinity" "NaN" (everywhere_number.mp hproper)
    rw [htext] at hprint
    subst hprint
    cases hspelling with
    | mk hwhole hpart hpower _ =>
      exact .mk negative hwhole (isFraction_fraction hpart) (isExponent_of_isPower hpower)

/-! ### Printed strings -/

private theorem isHexDigit_hexDigits :
    ∀ n < 0x20, (CodePoint.hexDigits 4 n).length = 4 ∧
      ∀ d ∈ CodePoint.hexDigits 4 n, d.isHexDigit = true := by
  decide

theorem isCharacter_escaped (c : CodePoint) : IsCharacter (escaped c) := by
  unfold escaped
  split
  · exact .short (c := CodePoint.ofChar '"') (by decide)
  split
  · exact .short (c := CodePoint.ofChar '\\') (by decide)
  split
  · exact .short (c := CodePoint.ofChar 'n') (by decide)
  split
  · exact .short (c := CodePoint.ofChar 'r') (by decide)
  split
  · exact .short (c := CodePoint.ofChar 't') (by decide)
  split
  · exact .short (c := CodePoint.ofChar 'f') (by decide)
  split
  · exact .short (c := CodePoint.ofChar 'b') (by decide)
  split
  · next hc =>
    obtain ⟨hlength, hdigits⟩ := isHexDigit_hexDigits c.val hc
    exact .unit hlength hdigits
  · next hquote hbackslash _ _ _ _ _ hcontrol =>
    exact .plain (Nat.le_of_not_lt hcontrol) hquote hbackslash

theorem isString_printString (t : Text) : IsString (printString t) := by
  have hcharacters : AreCharacters (t.flatMap escaped) := by
    induction t with
    | nil => exact .nil
    | cons c rest ih =>
      rw [List.flatMap_cons]
      exact .cons (isCharacter_escaped c) ih
  exact .quoted hcharacters

/-! ### Printed values -/

variable {layout : Layout}

theorem isSpace_lineBreak (layout : Layout) (depth : Nat) : IsSpace (layout.lineBreak depth) :=
  fun _ ↦ isSpace_of_mem_lineBreak

theorem isSpace_nil : IsSpace [] := by simp [IsSpace]

/-- Values that are printed one after another are elements, whatever space is around them. -/
private theorem derives_printItems (hlayout : layout.IsStandard) {depth : Nat} {items : List Json}
    (h : ∀ item ∈ items, ∀ t, printAt layout depth item = .ok t → Derives .value t)
    {before first rest after : Text} (hbefore : IsSpace before) (hfirst : Derives .value first)
    (hrest : printItems layout depth items = .ok rest) (hafter : IsSpace after) :
    Derives .elements (before ++ first ++ (rest ++ after)) := by
  induction items generalizing before first rest with
  | nil =>
    cases hrest
    exact .last (.element hbefore hfirst hafter)
  | cons item items ih =>
    obtain ⟨hitem, hitems⟩ := List.forall_mem_cons.mp h
    obtain ⟨next, more, hnext, hmore, rfl⟩ := printItems_cons_ok_iff.mp hrest
    obtain ⟨spaces, hcomma, hspaces⟩ := exists_comma_eq hlayout depth
    have helements := ih hitems hspaces (hitem next hnext) hmore
    have helement : Derives .element (before ++ first ++ []) :=
      .element hbefore hfirst isSpace_nil
    have htext : before ++ first ++ (Text.concat [layout.comma depth, next, more] ++ after) =
        before ++ first ++ [] ++ CodePoint.ofChar ',' :: (spaces ++ next ++ (more ++ after)) := by
      simp [Text.concat, hcomma]
    rw [htext]
    exact .more helement helements

private theorem derives_member (hlayout : layout.IsStandard) {before value after : Text}
    (key : Text) (hbefore : IsSpace before) (hvalue : Derives .value value)
    (hafter : IsSpace after) :
    Derives .member (before ++ printString key ++ layout.colon ++ value ++ after) := by
  obtain ⟨spaces, hcolon, hspaces⟩ := exists_colon_eq hlayout
  have hmember := Derives.member hbefore (isString_printString key) isSpace_nil
    (.element hspaces hvalue hafter)
  have htext : before ++ printString key ++ layout.colon ++ value ++ after =
      before ++ printString key ++ [] ++ CodePoint.ofChar ':' :: (spaces ++ value ++ after) := by
    simp [hcolon]
  rwa [htext]

/-- Fields that are printed one after another are members, whatever space is around them. -/
private theorem derives_printFields (hlayout : layout.IsStandard) {depth : Nat}
    {fields : List (Text × Json)}
    (h : ∀ field ∈ fields, ∀ t, printAt layout depth field.2 = .ok t → Derives .value t)
    {before first rest after : Text} (key : Text) (hbefore : IsSpace before)
    (hfirst : Derives .value first)
    (hrest : printFields layout depth fields = .ok rest) (hafter : IsSpace after) :
    Derives .members (before ++ printString key ++ layout.colon ++ first ++ (rest ++ after)) := by
  induction fields generalizing before key first rest with
  | nil =>
    cases hrest
    exact .lastMember (derives_member hlayout key hbefore hfirst hafter)
  | cons field fields ih =>
    obtain ⟨hfield, hfields⟩ := List.forall_mem_cons.mp h
    obtain ⟨key', value⟩ := field
    obtain ⟨next, more, hnext, hmore, rfl⟩ := printFields_cons_ok_iff.mp hrest
    obtain ⟨spaces, hcomma, hspaces⟩ := exists_comma_eq hlayout depth
    have hmembers := ih hfields key' hspaces (hfield next hnext) hmore
    have hmember := derives_member hlayout key hbefore hfirst isSpace_nil
    have htext : before ++ printString key ++ layout.colon ++ first ++
        (Text.concat [layout.comma depth, printString key', layout.colon, next, more] ++ after) =
        before ++ printString key ++ layout.colon ++ first ++ [] ++ CodePoint.ofChar ',' ::
          (spaces ++ printString key' ++ layout.colon ++ next ++ (more ++ after)) := by
      simp [Text.concat, hcomma]
    rw [htext]
    exact .moreMembers hmember hmembers

/-- What is printed for a value whose numbers are finite is a value of the grammar. -/
theorem derives_printAt (hlayout : layout.IsStandard) {value : Json} (hproper : value.IsProper)
    (hfinite : value.IsFinite) (depth : Nat) (t : Text)
    (hprint : printAt layout depth value = .ok t) : Derives .value t := by
  induction value using Json.induction generalizing depth t with
  | null => cases hprint; exact .null
  | bool b => cases b <;> cases hprint <;> constructor
  | number n => exact .number (isNumber_printNumber hproper hfinite hprint)
  | string s => cases hprint; exact .string (isString_printString s)
  | array items ih =>
    cases items with
    | nil => cases hprint; exact .emptyArray isSpace_nil
    | cons item items =>
      obtain ⟨first, rest, hfirst, hrest, rfl⟩ := printAt_array_ok_iff.mp hprint
      rw [isProper_array] at hproper
      rw [isFinite_array] at hfinite
      have hvalue : ∀ v ∈ item :: items, ∀ t, printAt layout (depth + 1) v = .ok t →
          Derives .value t :=
        fun v hv t ht ↦ ih v hv (hproper v hv) (hfinite v hv) (depth + 1) t ht
      obtain ⟨hitem, hitems⟩ := List.forall_mem_cons.mp hvalue
      have helements := derives_printItems hlayout hitems (isSpace_lineBreak layout (depth + 1))
        (hitem first hfirst) hrest (isSpace_lineBreak layout depth)
      have harray := Derives.array helements
      simpa [Text.concat, Text.ofString] using harray
  | object fields ih =>
    cases fields with
    | nil => cases hprint; exact .emptyObject isSpace_nil
    | cons field fields =>
      obtain ⟨key, value⟩ := field
      obtain ⟨first, rest, hfirst, hrest, rfl⟩ := printAt_object_ok_iff.mp hprint
      replace hproper := (isProper_object.mp hproper).2
      rw [isFinite_object] at hfinite
      have hvalue : ∀ v ∈ (key, value) :: fields, ∀ t, printAt layout (depth + 1) v.2 = .ok t →
          Derives .value t :=
        fun v hv t ht ↦ ih v hv (hproper v hv) (hfinite v hv) (depth + 1) t ht
      obtain ⟨hfield, hfields⟩ := List.forall_mem_cons.mp hvalue
      have hmembers := derives_printFields hlayout hfields key
        (isSpace_lineBreak layout (depth + 1)) (hfield first hfirst) hrest
        (isSpace_lineBreak layout depth)
      have hobject := Derives.object hmembers
      simpa [Text.concat, Text.ofString] using hobject

/-- A value whose numbers are finite is printed as a document. -/
theorem isDocument_print (hlayout : layout.IsStandard) {value : Json} (hproper : value.IsProper)
    (hfinite : value.IsFinite) {t : Text} (hprint : print layout value = .ok t) :
    IsDocument t := by
  have hvalue := derives_printAt hlayout hproper hfinite 0 t hprint
  have helement := Derives.element isSpace_nil hvalue isSpace_nil
  rwa [List.nil_append, List.append_nil] at helement

end Grammar

end StoryCatalog.Json
