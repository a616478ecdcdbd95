import StoryCatalog.Proofs.Json.Printing
import StoryCatalog.Proofs.Literal.Numeral
import StoryCatalog.Proofs.Script.Operands

/-!
# Documents as expressions

A document on one line is an expression of the script: `Json.tree` is the tree that its value comes
to, and `reads_print` reads it. Documents nest as deep as they are long, and each level of nesting
takes two levels of the grammar.
-/

namespace StoryCatalog

open Script Reading

/-! ### The trees of values -/

/-- The tree of what is printed for a number: a minus is an operator in front of a literal. -/
def treeOfNumeral (t : Text) : Tree :=
  if t.head? = some (CodePoint.ofChar '-') then .unary "-" (.number t.tail) t else .number t

theorem treeOfNumeral_signed {body : Text} (h : IsUnsigned body) (negative : Bool) :
    treeOfNumeral (Json.signed negative body) =
      if negative then .unary "-" (.number body) (CodePoint.ofChar '-' :: body)
      else .number body := by
  cases negative with
  | true => rfl
  | false =>
    obtain ⟨n, hn, more, rfl⟩ := h.exists_eq_cons
    have hdigits : ∀ n < 10, CodePoint.ofDigit n ≠ CodePoint.ofChar '-' := by decide
    exact if_neg fun hhead ↦ hdigits n hn (Option.some.inj hhead)

namespace Json

mutual

/-- The tree of the document of a value. -/
def tree : Json → Tree
  | .null => .null
  | .bool b => .boolean b
  | .number n => treeOfNumeral (numeralOf n)
  | .string t => .string (piecesOf t)
  | .array items => .array (treesOf items)
  | .object fields => .object (membersOf fields)

/-- The trees of items. -/
def treesOf : List Json → List Tree
  | [] => []
  | item :: items => tree item :: treesOf items

/-- The members of fields: a quoted key and a value each. -/
def membersOf : List (Text × Json) → List Member
  | [] => []
  | (key, value) :: fields => .pair (.string (piecesOf key)) (tree value) :: membersOf fields

end

/-- A value stands in a script as in a document: its keys are distinct, its numbers are finite and
within the digit limit, and its texts hold no surrogate. -/
structure IsEmbeddable (value : Json) : Prop where
  isProper : value.IsProper
  isWritable : value.IsWritable
  isFinite : value.Everywhere IsFinitePart

variable {items : List Json} {fields : List (Text × Json)}

@[simp] theorem isEmbeddable_null : IsEmbeddable .null :=
  ⟨isProper_null, isWritable_null, everywhere_null.mpr trivial⟩

@[simp] theorem isEmbeddable_string {t : Text} : IsEmbeddable (.string t) ↔ t.IsScalar :=
  ⟨fun h ↦ isWritable_string.mp h.isWritable,
    fun h ↦ ⟨isProper_string, isWritable_string.mpr h, everywhere_string.mpr trivial⟩⟩

@[simp] theorem isEmbeddable_int {n : ℤ} :
    IsEmbeddable (.number (.int n)) ↔ Number.fitsLimit n = true :=
  ⟨fun h ↦ isWritable_int.mp h.isWritable,
    fun h ↦ ⟨isProper_int, isWritable_int.mpr h, everywhere_number.mpr trivial⟩⟩

@[simp] theorem isEmbeddable_finite {negative : Bool} {m : ℕ} {e : ℤ} :
    IsEmbeddable (.number (.float (.finite negative m e))) ↔
      (Binary64.finite negative m e).IsCanonical :=
  ⟨fun h ↦ everywhere_number.mp h.isProper,
    fun h ↦ ⟨everywhere_number.mpr h,
      ⟨everywhere_number.mpr trivial, everywhere_number.mpr (by simp [ownTexts])⟩,
      everywhere_number.mpr ⟨negative, m, e, rfl⟩⟩⟩

theorem isEmbeddable_array :
    IsEmbeddable (.array items) ↔ ∀ item ∈ items, item.IsEmbeddable := by
  constructor
  · intro h item hitem
    exact ⟨isProper_array.mp h.isProper item hitem, isWritable_array.mp h.isWritable item hitem,
      (everywhere_array.mp h.isFinite).2 item hitem⟩
  · intro h
    exact ⟨isProper_array.mpr fun item hitem ↦ (h item hitem).isProper,
      isWritable_array.mpr fun item hitem ↦ (h item hitem).isWritable,
      everywhere_array.mpr ⟨trivial, fun item hitem ↦ (h item hitem).isFinite⟩⟩

theorem isEmbeddable_object :
    IsEmbeddable (.object fields) ↔ (Fields.keys fields).Nodup ∧
      (∀ key ∈ Fields.keys fields, key.IsScalar) ∧ ∀ field ∈ fields, field.2.IsEmbeddable := by
  constructor
  · intro h
    obtain ⟨hkeys, hproper⟩ := isProper_object.mp h.isProper
    obtain ⟨hscalar, hwritable⟩ := isWritable_object.mp h.isWritable
    exact ⟨hkeys, hscalar, fun field hfield ↦ ⟨hproper field hfield, hwritable field hfield,
      (everywhere_object.mp h.isFinite).2 field hfield⟩⟩
  · rintro ⟨hkeys, hscalar, h⟩
    exact ⟨isProper_object.mpr ⟨hkeys, fun field hfield ↦ (h field hfield).isProper⟩,
      isWritable_object.mpr ⟨hscalar, fun field hfield ↦ (h field hfield).isWritable⟩,
      everywhere_object.mpr ⟨trivial, fun field hfield ↦ (h field hfield).isFinite⟩⟩

/-- What is printed for a number denotes it, a minus taken for a sign. -/
theorem IsEmbeddable.exists_numeral {n : Number} (h : (Json.number n).IsEmbeddable) :
    ∃ negative body k, numeralOf n = signed negative body ∧ IsUnsigned body ∧
      Numeral.read? body = some k ∧ (if negative then k.neg else k) = n := by
  cases n with
  | int n => exact exists_numeral_int (isWritable_int.mp h.isWritable)
  | float x =>
    obtain ⟨negative, m, e, rfl⟩ := everywhere_number.mp h.isFinite
    exact ⟨negative, exists_numeral_finite (everywhere_number.mp h.isProper)⟩

end Json

namespace Script.Expressions

variable {g : Grammar} {scope : Scope} {left rest cs : List Char} {c : Char} {tree : Tree}

/-! ### Atoms -/

private theorem reads_atom_object (hleft : LeadsTo left ('\x7b' :: cs))
    (h : Reads (object g) scope left rest tree) : Reads (atom g) scope left rest tree :=
  (reads_next hleft).bind h

private theorem reads_atom_array (hleft : LeadsTo left ('[' :: cs))
    (h : Reads (array g) scope left rest tree) : Reads (atom g) scope left rest tree :=
  (reads_next hleft).bind h

private theorem reads_atom_quoted {quote : Char} {pieces : List Piece}
    (hquote : quote = '"' ∨ quote = '\'') (hleft : LeadsTo left (quote :: cs))
    (h : Reads quoted scope left rest pieces) :
    Reads (atom g) scope left rest (.string pieces) := by
  rcases hquote with rfl | rfl <;> exact (reads_next hleft).bind (h.bind .pure)

private theorem reads_atom_number {spelling : Text} (hc : c.isDigit = true)
    (hleft : LeadsTo left (c :: cs)) (h : Reads number scope left rest spelling) :
    Reads (atom g) scope left rest (.number spelling) := by
  have hne : ∀ d : Char, d.isDigit = false → c ≠ d := by
    rintro d hd rfl
    rw [hc] at hd
    cases hd
  unfold atom
  refine (reads_next hleft).bind ?_
  rw [List.head?_cons]
  dsimp only
  rw [if_neg (hne '(' rfl), if_neg (hne '\x7b' rfl), if_neg (hne '[' rfl),
    if_neg (by simp [hne '"' rfl, hne '\'' rfl]), if_pos (by rw [hc]; rfl)]
  exact h.bind .pure

private theorem endsWord_of_closes (h : Closes rest) : EndsWord rest := by
  obtain ⟨c, hhead, hc⟩ := h
  have hplain : ∀ c ∈ closers, isWordPart c = false ∧ c ≠ '\\' :=
    List.all_iff_forall_prop.mp (by decide)
  intro d hd
  obtain rfl : c = d := Option.mem_unique hhead hd
  exact hplain c hc

/-! ### Scalars -/

variable {bang : Bool}

private theorem reads_operand_constant {word : String}
    (hword : word = "null" ∧ tree = .null ∨ word = "true" ∧ tree = .boolean true ∨
      word = "false" ∧ tree = .boolean false)
    (hleft : LeadsTo left (word.toList ++ rest)) (hrest : Closes rest) :
    Reads (operand g bang) scope left rest tree := by
  have hends := endsWord_of_closes hrest
  rcases hword with ⟨rfl, rfl⟩ | ⟨rfl, rfl⟩ | ⟨rfl, rfl⟩
  all_goals
    have hpeek : Reads peekWord scope left left _ := reads_peekWord hleft (by decide) hends
    have hany : Reads anyWord scope left rest _ := reads_anyWord hleft (by decide) hends
    exact reads_operand hleft (by decide) hpeek (by decide)
      ((reads_next hleft).bind (hpeek.bind (hany.seqRight .pure))) hrest

/-- A quoted literal is an operand. -/
theorem reads_operand_quoted {quote : Char} {pieces : List Piece}
    (hquote : quote = '"' ∨ quote = '\'') (hleft : LeadsTo left (quote :: cs))
    (h : Reads quoted scope left rest pieces) (hrest : Closes rest) :
    Reads (operand g bang) scope left rest (.string pieces) := by
  have hstarts : StartsAtom quote ∧ isWordStart quote = false ∧ quote ≠ '\\' := by
    rcases hquote with rfl | rfl <;> decide
  have hpeek : Reads peekWord scope left left "" :=
    reads_peekWord_none hleft hstarts.2.1 hstarts.2.2
  exact reads_operand hleft hstarts.1 hpeek (by decide) (reads_atom_quoted hquote hleft h) hrest

/-- An operand that a value is closed behind is an expression, one level further up. -/
theorem reads_expression {levels : Nat} (hleft : LeadsTo left cs)
    (h : Reads (operand (Grammar.ofDepth levels) true) scope left rest tree) (hrest : Closes rest) :
    Reads (Grammar.ofDepth (levels + 2)).expression scope left rest tree :=
  reads_ofGrammar (g := Grammar.ofDepth (levels + 1)) hleft h hrest

private theorem reads_operand_string {t : Text} (ht : t.IsScalar)
    (hleft : LeadsTo left (Text.chars (Json.printString t) ++ rest)) (hrest : Closes rest) :
    Reads (operand g bang) scope left rest (.string (piecesOf t)) :=
  reads_operand_quoted (.inl rfl) hleft (reads_quoted ht hleft) hrest

private theorem isDigit_ofDigit : ∀ n < 10, (CodePoint.ofDigit n).char.isDigit = true := by decide

/-- A digit begins an atom, and nothing else that is told by one character. -/
private theorem digit_marks (hc : c.isDigit = true) :
    StartsAtom c ∧ isWordStart c = false ∧ c ≠ '\\' ∧ isSpace c = false ∧ c ≠ '/' := by
  have hmarks : ∀ n < 10, StartsAtom (CodePoint.ofDigit n).char ∧
      isWordStart (CodePoint.ofDigit n).char = false ∧ (CodePoint.ofDigit n).char ≠ '\\' ∧
        isSpace (CodePoint.ofDigit n).char = false ∧ (CodePoint.ofDigit n).char ≠ '/' := by decide
  rw [Char.isDigit, Bool.and_eq_true, decide_eq_true_eq, decide_eq_true_eq] at hc
  have hdigit : (CodePoint.ofChar c).isDigit = true := by
    rw [CodePoint.isDigit, Bool.and_eq_true, decide_eq_true_eq, decide_eq_true_eq]
    exact ⟨UInt32.le_iff_toNat_le.mp hc.1, UInt32.le_iff_toNat_le.mp hc.2⟩
  obtain ⟨n, hn, heq⟩ := CodePoint.exists_eq_ofDigit hdigit
  rw [← CodePoint.char_ofChar c, heq]
  exact hmarks n hn

/-- Nothing stands in front of a digit. -/
theorem leadsTo_digit (hc : c.isDigit = true) : LeadsTo (c :: cs) (c :: cs) :=
  .refl (digit_marks hc).2.2.2.1 (digit_marks hc).2.2.2.2

/-- A numeric literal that begins with a digit is an operand. -/
theorem reads_operand_digit {spelling : Text} (hc : c.isDigit = true)
    (hleft : LeadsTo left (c :: cs)) (h : Reads number scope left rest spelling)
    (hrest : Closes rest) :
    Reads (operand g bang) scope left rest (.number spelling) := by
  obtain ⟨hstarts, hword, hslash, -⟩ := digit_marks hc
  exact reads_operand hleft hstarts (reads_peekWord_none hleft hword hslash) (by decide)
    (reads_atom_number hc hleft h) hrest

open Decimal

private theorem reads_operand_number {body : Text} (hbody : IsUnsigned body)
    (hleft : LeadsTo left (Text.chars body ++ rest)) (hrest : Closes rest) :
    Reads (operand g bang) scope left rest (.number body) := by
  obtain ⟨n, hn, more, rfl⟩ := hbody.exists_eq_cons
  obtain ⟨whole, part, power, p, hparts, hwhole, hpart, hpower⟩ := hbody.parts
  have hnumber : Reads number scope left rest (CodePoint.ofDigit n :: more) := by
    rw [hparts] at hleft ⊢
    exact reads_number hwhole hpart hpower hrest hleft
  exact reads_operand_digit (isDigit_ofDigit n hn) hleft hnumber hrest

/-- A minus and a digit make no longer punctuation. -/
private theorem punctuation_minus (hc : c.isDigit = true) :
    punctuation ('-' :: c :: cs) = "-" := by
  have htokens : ∀ token ∈ longPunctuation, token.toList.head?.any (· != '-') = true ∨
      token.toList[1]?.any (!·.isDigit) = true := by decide
  have hnone : (longPunctuation.find? fun token ↦
      token.toList.isPrefixOf ('-' :: c :: cs)) = none := by
    rw [List.find?_eq_none]
    intro token htoken hmatch
    have hget : ∀ n : Nat, ∀ d ∈ token.toList[n]?, ('-' :: c :: cs)[n]? = some d := by
      intro n d hd
      obtain ⟨hn, rfl⟩ := List.getElem?_eq_some_iff.mp hd
      exact List.prefix_iff_getElem?.mp (List.isPrefixOf_iff_prefix.mp hmatch) n hn
    rcases htokens token htoken with hfirst | hsecond
    · obtain ⟨d, hhead, hd⟩ := (Option.any_eq_true ..).mp hfirst
      rw [List.head?_eq_getElem?] at hhead
      obtain rfl : '-' = d := Option.some.inj (hget 0 d hhead)
      cases hd
    · obtain ⟨d, hd, hdigit⟩ := (Option.any_eq_true ..).mp hsecond
      obtain rfl : c = d := Option.some.inj (hget 1 d hd)
      rw [hc] at hdigit
      cases hdigit
  rw [punctuation, hnone]
  rfl

private theorem isScalar_of_isUnsigned {body : Text} (h : IsUnsigned body) : body.IsScalar := by
  obtain ⟨whole, part, power, p, rfl, hwhole, hpart, hpower⟩ := h.parts
  exact isScalar_numeral hwhole hpart hpower

/-- A minus in front of a number is an operator. -/
private theorem reads_operand_negative {body : Text} {levels : Nat} (hbody : IsUnsigned body)
    (hleft : LeadsTo left ('-' :: (Text.chars body ++ rest))) (hrest : Closes rest) :
    Reads (operand (Grammar.ofDepth (levels + 1)) bang) scope left rest
      (.unary "-" (.number body) (CodePoint.ofChar '-' :: body)) := by
  refine .of_isSuffix fun hsource ↦ ?_
  obtain ⟨n, hn, more, hcons⟩ := hbody.exists_eq_cons
  have hdigit := isDigit_ofDigit n hn
  have hmark : Reads peekPunctuation scope _ _ _ := reads_peekPunctuation hleft
  rw [hcons, Text.chars_cons, List.cons_append, punctuation_minus hdigit] at hmark
  have hbehind : LeadsTo (Text.chars body ++ rest) (Text.chars body ++ rest) := by
    rw [hcons, Text.chars_cons, List.cons_append]
    exact leadsTo_digit hdigit
  have hinner : Reads ((Grammar.ofDepth (levels + 1)).operand false) scope (Text.chars body ++ rest)
      rest (.number body) := reads_operand_number hbody hbehind hrest
  have htext : Reads (textFrom (scope.offset ('-' :: (Text.chars body ++ rest)))) scope rest rest
      (CodePoint.ofChar '-' :: body) := by
    have hread := reads_textFrom (show ('-' :: Text.chars body) ++ rest <:+ scope.source.toList from
      hleft.isSuffix hsource)
    have hchars : Text.ofChars ('-' :: Text.chars body) = CodePoint.ofChar '-' :: body :=
      congrArg (CodePoint.ofChar '-' :: ·) (Text.ofChars_chars (isScalar_of_isUnsigned hbody))
    rwa [hchars] at hread
  unfold operand
  exact (reads_start hleft).bind (hmark.bind ((reads_symbol hleft).bind
    (hinner.bind (htext.bind .pure))))

private theorem reads_operand_numeral {n : Number} {levels : Nat}
    (hvalue : (Json.number n).IsEmbeddable)
    (hleft : LeadsTo left (Text.chars (numeralOf n) ++ rest)) (hrest : Closes rest) :
    Reads (operand (Grammar.ofDepth (levels + 1)) bang) scope left rest
      (treeOfNumeral (numeralOf n)) := by
  obtain ⟨negative, body, k, htext, hbody, -, -⟩ := hvalue.exists_numeral
  rw [htext] at hleft ⊢
  rw [treeOfNumeral_signed hbody]
  cases negative with
  | true => exact reads_operand_negative hbody hleft hrest
  | false => exact reads_operand_number hbody hleft hrest

/-! ### Items of arrays and objects -/

/-- A text is read as an item between commas. -/
private structure IsItem {α : Type} (item : Reading α) (closing : Char) (scope : Scope) (t : Text)
    (a : α) : Prop where
  head : ∃ c ∈ (Text.chars t).head?, isSpace c = false ∧ c ≠ '/' ∧ c ≠ ',' ∧ c ≠ closing
  reads : ∀ {left rest : List Char}, LeadsTo left (Text.chars t ++ rest) → Closes rest →
    Reads item scope left rest a

section

variable {α : Type} {item : Reading α} {closing : Char} {t : Text} {a : α}

private theorem IsItem.exists_cons (h : IsItem item closing scope t a) :
    ∃ c cs, Text.chars t = c :: cs ∧ isSpace c = false ∧ c ≠ '/' ∧ c ≠ ',' ∧ c ≠ closing := by
  obtain ⟨c, hhead, hc⟩ := h.head
  obtain ⟨cs, hcs⟩ := List.head?_eq_some_iff.mp hhead
  exact ⟨c, cs, hcs, hc⟩

private theorem IsItem.leadsTo (h : IsItem item closing scope t a) (rest : List Char) :
    LeadsTo (Text.chars t ++ rest) (Text.chars t ++ rest) := by
  obtain ⟨c, cs, hcs, hspace, hslash, -⟩ := h.exists_cons
  rw [hcs]
  exact .refl hspace hslash

private theorem IsItem.startsItem (h : IsItem item closing scope t a)
    (hleft : LeadsTo left (Text.chars t ++ rest)) : StartsItem closing left := by
  obtain ⟨c, cs, hcs, -, -, hcomma, hclosing⟩ := h.exists_cons
  rw [hcs] at hleft
  exact ⟨c, _, hleft, hcomma, hclosing⟩

private theorem IsItem.length_lt (h : IsItem item closing scope t a)
    (hleft : LeadsTo left (Text.chars t ++ rest)) : rest.length < left.length := by
  obtain ⟨c, cs, hcs, -⟩ := h.exists_cons
  have hlength := hleft.length_le
  rw [List.length_append, hcs, List.length_cons] at hlength
  omega

/-- Texts with a comma and a blank in front of each. -/
private def listed : List Text → Text
  | [] => []
  | t :: texts => CodePoint.ofChar ',' :: CodePoint.ofChar ' ' :: (t ++ listed texts)

private theorem items_listed (hclosing : closing ∈ closers) {texts : List Text} {results : List α}
    (hrest : List.Forall₂ (IsItem item closing scope) texts results)
    (hfirst : IsItem item closing scope t a)
    (hleft : LeadsTo left (Text.chars t ++ (Text.chars (listed texts) ++ closing :: rest))) :
    Items item closing scope left (closing :: rest) (a :: results) := by
  induction hrest generalizing t a left with
  | nil =>
    exact .last (hfirst.startsItem hleft) (hfirst.length_lt hleft)
      (hfirst.reads hleft ⟨closing, rfl, hclosing⟩)
  | @cons t' a' texts results hitem _ ih =>
    have htexts : Text.chars (listed (t' :: texts)) ++ closing :: rest =
        ',' :: ' ' :: (Text.chars t' ++ (Text.chars (listed texts) ++ closing :: rest)) := by
      simp [listed]
    rw [htexts] at hleft
    exact .more (hfirst.startsItem hleft) (hfirst.length_lt hleft)
      (hfirst.reads hleft ⟨',', rfl, by decide⟩) (ih hitem (hitem.leadsTo _).blank)

end

/-! ### Arrays and objects -/

private theorem reads_spreadable (hleft : LeadsTo left (c :: cs)) (hc : c ≠ '.')
    (h : Reads g.expression scope left rest tree) : Reads g.spreadable scope left rest tree := by
  have hdots : "...".toList.isPrefixOf (c :: cs) = false := by
    change ('.' == c && _) = false
    rw [beq_eq_false_iff_ne.mpr hc.symm, Bool.false_and]
  exact (reads_start hleft).bind ((reads_symbolIf_false hleft hdots).bind h)

private theorem reads_modifierIf_false {words : List String} (hleft : LeadsTo left ('"' :: cs))
    (hwords : words.contains "" = false) :
    Reads (Grammar.modifierIf words) scope left left false := by
  have hpeek : Reads peekWord scope left left "" :=
    reads_peekWord_none hleft (by decide) (by decide)
  have hsees : Reads (seesWordOf words) scope left left false := by
    refine hpeek.bind ?_
    rw [hwords]
    exact .pure
  exact (hsees.bind_fails fails_fail.bind).orElse .pure

/-- A quoted key, a colon and a value are a member of an object. -/
private theorem reads_objectMember {key : Text} (hkey : key.IsScalar)
    (hleft : LeadsTo left (Text.chars (Json.printString key) ++ ':' :: cs))
    (hvalue : Reads g.expression scope cs rest tree) :
    Reads (objectMember g) scope left rest (.pair (.string (piecesOf key)) tree) := by
  have hquote : LeadsTo left ('"' :: (Text.chars (key.flatMap Json.escaped ++
    [CodePoint.ofChar '"']) ++ ':' :: cs)) := hleft
  have hmodifiers : Reads (repeated do
      if ← Grammar.modifierIf ("async" :: Grammar.modifiers) then return some () else return none)
      scope left left [] :=
    (Repeats.stop ((reads_modifierIf_false hquote (by decide)).bind .pure)).reads
  have hmark : Reads Grammar.accessorOrStar scope left left false :=
    (reads_modifierIf_false hquote (by decide)).bind (reads_symbolIf_false hquote rfl)
  have hmember : Reads g.memberKey scope left (':' :: cs) (.string (piecesOf key)) :=
    (reads_next hquote).bind ((reads_quoted hkey hleft).bind .pure)
  have hcolon : Reads (symbolIf ":") scope (':' :: cs) cs true :=
    reads_symbolIf (.refl (by decide) (by decide))
  exact (reads_symbolIf_false hquote rfl).bind (hmodifiers.bind (hmark.bind
    (hmember.bind (hcolon.bind (hvalue.bind .pure)))))

private theorem reads_array {trees : List Tree} (hleft : LeadsTo left ('[' :: cs))
    (h : Reads (commaItems "]" g.spreadable) scope.bracketed cs (']' :: rest) trees) :
    Reads (array g) scope left rest (.array trees) := by
  have hclose : Reads (symbol "]") scope.bracketed (']' :: rest) rest () :=
    reads_symbol (.refl (by decide) (by decide))
  exact (reads_symbol hleft).bind (Reads.bracketed (h.bind (hclose.bind .pure)))

private theorem reads_object {members : List Member} (hleft : LeadsTo left ('\x7b' :: cs))
    (h : Reads (commaItems "\x7d" (objectMember g)) scope.bracketed cs ('\x7d' :: rest) members) :
    Reads (object g) scope left rest (.object members) := by
  have hclose : Reads (symbol "\x7d") scope.bracketed ('\x7d' :: rest) rest () :=
    reads_symbol (.refl (by decide) (by decide))
  exact (reads_symbol hleft).bind (Reads.bracketed (h.bind (hclose.bind .pure)))

/-! ### Documents -/

open Json (printAt printItems printFields printString Layout)

variable {depth levels : Nat} {t : Text} {value : Json}

/-- The characters that a document begins with. -/
private def valueHeads : List Char :=
  ['"', '[', '\x7b', '-', 'n', 't', 'f', '0', '1', '2', '3', '4', '5', '6', '7', '8', '9']

private theorem exists_numeral_eq_cons {n : Number} (hvalue : (Json.number n).IsEmbeddable) :
    ∃ c cs, Text.chars (numeralOf n) = c :: cs ∧ c ∈ valueHeads := by
  obtain ⟨negative, body, k, htext, hbody, -, -⟩ := hvalue.exists_numeral
  obtain ⟨k, hk, more, rfl⟩ := hbody.exists_eq_cons
  have hdigits : ∀ n < 10, (CodePoint.ofDigit n).char ∈ valueHeads := by decide
  rw [htext]
  cases negative with
  | true => exact ⟨'-', _, rfl, by decide⟩
  | false => exact ⟨_, _, rfl, hdigits k hk⟩

private theorem exists_chars_eq_cons (hvalue : value.IsEmbeddable)
    (hprint : printAt .spaced depth value = .ok t) :
    ∃ c cs, Text.chars t = c :: cs ∧ c ∈ valueHeads := by
  cases value with
  | null => cases hprint; exact ⟨'n', _, rfl, by decide⟩
  | bool b =>
    cases hprint
    cases b with
    | true => exact ⟨'t', _, rfl, by decide⟩
    | false => exact ⟨'f', _, rfl, by decide⟩
  | number n =>
    rw [numeralOf_of_printNumber hprint]
    exact exists_numeral_eq_cons hvalue
  | string s => cases hprint; exact ⟨'"', _, rfl, by decide⟩
  | array items =>
    cases items with
    | nil => cases hprint; exact ⟨'[', _, rfl, by decide⟩
    | cons item items =>
      obtain ⟨first, rest, -, -, rfl⟩ := Json.printAt_array_ok_iff.mp hprint
      exact ⟨'[', _, rfl, by decide⟩
  | object fields =>
    cases fields with
    | nil => cases hprint; exact ⟨'\x7b', _, rfl, by decide⟩
    | cons field fields =>
      obtain ⟨first, rest, -, -, rfl⟩ := Json.printAt_object_ok_iff.mp hprint
      exact ⟨'\x7b', _, rfl, by decide⟩

private theorem length_pos (hvalue : value.IsEmbeddable)
    (hprint : printAt .spaced depth value = .ok t) : 0 < t.length := by
  obtain ⟨c, cs, hcs, -⟩ := exists_chars_eq_cons hvalue hprint
  rw [← Text.length_chars, hcs]
  exact Nat.succ_pos _

/-- A document begins with a token. -/
theorem leadsTo_printAt (hvalue : value.IsEmbeddable)
    (hprint : printAt .spaced depth value = .ok t) :
    LeadsTo (Text.chars t ++ rest) (Text.chars t ++ rest) := by
  have hheads : ∀ c ∈ valueHeads, isSpace c = false ∧ c ≠ '/' :=
    List.all_iff_forall_prop.mp (by decide)
  obtain ⟨c, cs, hcs, hc⟩ := exists_chars_eq_cons hvalue hprint
  rw [hcs]
  exact .refl (hheads c hc).1 (hheads c hc).2

/-- The document of a value is read as the tree of the value. -/
private def ReadsAsTree (value : Json) : Prop :=
  value.IsEmbeddable → ∀ {depth levels : Nat} {t : Text}, printAt .spaced depth value = .ok t →
    2 * t.length + 1 ≤ levels → ∀ {scope : Scope} {left rest : List Char},
      LeadsTo left (Text.chars t ++ rest) → Closes rest →
        Reads (Grammar.ofDepth levels).expression scope left rest value.tree

/-- The document of a value is read as the tree of the value where an operand is read. -/
private def ReadsAsOperand (value : Json) : Prop :=
  value.IsEmbeddable → ∀ {depth levels : Nat} {t : Text}, printAt .spaced depth value = .ok t →
    2 * t.length ≤ levels + 1 → ∀ {scope : Scope} {left rest : List Char},
      LeadsTo left (Text.chars t ++ rest) → Closes rest →
        Reads (operand (Grammar.ofDepth levels) true) scope left rest value.tree

private theorem ReadsAsOperand.readsAsTree (h : ReadsAsOperand value) : ReadsAsTree value := by
  intro hvalue depth levels t hprint hlevels scope left rest hleft hrest
  obtain ⟨c, cs, hcs, -⟩ := exists_chars_eq_cons hvalue hprint
  have hlength := length_pos hvalue hprint
  obtain ⟨levels, rfl⟩ : ∃ k, levels = k + 2 := ⟨levels - 2, by omega⟩
  rw [hcs] at hleft
  have hoperand : Reads ((Grammar.ofDepth (levels + 1)).operand true) scope left rest value.tree :=
    h hvalue hprint (by omega) (by rwa [hcs]) hrest
  exact reads_ofGrammar hleft hoperand hrest

private theorem isItem_spreadable (hreads : ReadsAsTree value) (hvalue : value.IsEmbeddable)
    (hprint : printAt .spaced depth value = .ok t) (hlevels : 2 * t.length + 1 ≤ levels) :
    IsItem (Grammar.ofDepth levels).spreadable ']' scope t value.tree := by
  have hheads : ∀ c ∈ valueHeads,
      (isSpace c = false ∧ c ≠ '/' ∧ c ≠ ',' ∧ c ≠ ']') ∧ c ≠ '.' :=
    List.all_iff_forall_prop.mp (by decide)
  obtain ⟨c, cs, hcs, hc⟩ := exists_chars_eq_cons hvalue hprint
  refine ⟨⟨c, by rw [hcs]; rfl, (hheads c hc).1⟩, fun hleft hrest ↦ ?_⟩
  have hread : Reads _ scope _ _ _ := hreads hvalue hprint hlevels hleft hrest
  rw [hcs] at hleft
  exact reads_spreadable hleft (hheads c hc).2 hread

private theorem isItem_objectMember {key : Text} (hkey : key.IsScalar) (hreads : ReadsAsTree value)
    (hvalue : value.IsEmbeddable) (hprint : printAt .spaced depth value = .ok t)
    (hlevels : 2 * t.length + 1 ≤ levels) :
    IsItem (objectMember (Grammar.ofDepth levels)) '\x7d' scope
      (printString key ++ (": " ++ t)) (.pair (.string (piecesOf key)) value.tree) := by
  refine ⟨⟨'"', rfl, by decide⟩, fun {left rest} hleft hrest ↦ ?_⟩
  have hbehind : LeadsTo (' ' :: (Text.chars t ++ rest)) (Text.chars t ++ rest) :=
    (leadsTo_printAt hvalue hprint).blank
  have hcolon : Text.chars (printString key ++ (": " ++ t)) ++ rest =
      Text.chars (printString key) ++ ':' :: ' ' :: (Text.chars t ++ rest) := by
    simp
  rw [hcolon] at hleft
  exact reads_objectMember hkey hleft (hreads hvalue hprint hlevels hbehind hrest)

/-- The items behind the first one are listed. -/
private theorem exists_listed_items (scope : Scope) {items : List Json}
    (hreads : ∀ item ∈ items, ReadsAsTree item ∧ item.IsEmbeddable)
    (hprint : printItems .spaced depth items = .ok t) (hlevels : 2 * t.length + 1 ≤ levels) :
    ∃ texts, t = listed texts ∧
      List.Forall₂ (IsItem (Grammar.ofDepth levels).spreadable ']' scope) texts
        (Json.treesOf items) := by
  induction items generalizing t with
  | nil =>
    cases hprint
    exact ⟨[], rfl, .nil⟩
  | cons item items ih =>
    obtain ⟨hitem, hitems⟩ := List.forall_mem_cons.mp hreads
    obtain ⟨first, rest, hfirst, hrest, rfl⟩ := Json.printItems_cons_ok_iff.mp hprint
    have hlisted : Text.concat [Layout.spaced.comma depth, first, rest] =
        CodePoint.ofChar ',' :: CodePoint.ofChar ' ' :: (first ++ rest) := by
      simp [Text.concat, Layout.spaced, Layout.comma, Text.ofString]
    rw [hlisted, List.length_cons, List.length_cons, List.length_append] at hlevels
    obtain ⟨texts, rfl, htexts⟩ := ih hitems hrest (by omega)
    exact ⟨first :: texts, hlisted,
      .cons (isItem_spreadable hitem.1 hitem.2 hfirst (by omega)) htexts⟩

/-- The fields behind the first one are listed. -/
private theorem exists_listed_fields (scope : Scope) {fields : List (Text × Json)}
    (hkeys : ∀ key ∈ Fields.keys fields, key.IsScalar)
    (hreads : ∀ field ∈ fields, ReadsAsTree field.2 ∧ field.2.IsEmbeddable)
    (hprint : printFields .spaced depth fields = .ok t) (hlevels : 2 * t.length + 1 ≤ levels) :
    ∃ texts, t = listed texts ∧
      List.Forall₂ (IsItem (objectMember (Grammar.ofDepth levels)) '\x7d' scope) texts
        (Json.membersOf fields) := by
  induction fields generalizing t with
  | nil =>
    cases hprint
    exact ⟨[], rfl, .nil⟩
  | cons field fields ih =>
    obtain ⟨key, value⟩ := field
    obtain ⟨hfield, hfields⟩ := List.forall_mem_cons.mp hreads
    obtain ⟨hkey, hmore⟩ := List.forall_mem_cons.mp hkeys
    obtain ⟨first, rest, hfirst, hrest, rfl⟩ := Json.printFields_cons_ok_iff.mp hprint
    have hlisted : Text.concat
        [Layout.spaced.comma depth, printString key, Layout.spaced.colon, first, rest] =
        CodePoint.ofChar ',' :: CodePoint.ofChar ' ' ::
          (printString key ++ (": " ++ first) ++ rest) := by
      simp [Text.concat, Layout.spaced, Layout.comma, Layout.colon, Text.ofString]
    rw [hlisted] at hlevels
    simp only [List.length_cons, List.length_append] at hlevels
    obtain ⟨texts, rfl, htexts⟩ := ih hmore hfields hrest (by omega)
    exact ⟨_ :: texts, hlisted,
      .cons (isItem_objectMember hkey hfield.1 hfield.2 hfirst (by omega)) htexts⟩

private theorem reads_operand_array {trees : List Tree} (hleft : LeadsTo left ('[' :: cs))
    (h : Reads (commaItems "]" g.spreadable) scope.bracketed cs (']' :: rest) trees)
    (hrest : Closes rest) : Reads (operand g bang) scope left rest (.array trees) :=
  reads_operand hleft (by decide) (reads_peekWord_none hleft (by decide) (by decide)) (by decide)
    (reads_atom_array hleft (reads_array hleft h)) hrest

private theorem reads_operand_object {members : List Member} (hleft : LeadsTo left ('\x7b' :: cs))
    (h : Reads (commaItems "\x7d" (objectMember g)) scope.bracketed cs ('\x7d' :: rest) members)
    (hrest : Closes rest) : Reads (operand g bang) scope left rest (.object members) :=
  reads_operand hleft (by decide) (reads_peekWord_none hleft (by decide) (by decide)) (by decide)
    (reads_atom_object hleft (reads_object hleft h)) hrest

private theorem readsAsOperand_array {items : List Json} (h : ∀ item ∈ items, ReadsAsTree item) :
    ReadsAsOperand (.array items) := by
  intro hvalue depth levels t hprint hlevels scope left rest hleft hrest
  cases items with
  | nil =>
    cases hprint
    refine reads_operand_array hleft ?_ hrest
    exact reads_commaItems_nil rfl (by decide) (by decide) (by decide)
  | cons item items =>
    obtain ⟨first, more, hfirst, hmore, rfl⟩ := Json.printAt_array_ok_iff.mp hprint
    have hvalues := Json.isEmbeddable_array.mp hvalue
    obtain ⟨hitem, hitems⟩ := List.forall_mem_cons.mp fun item hmem ↦
      And.intro (h item hmem) (hvalues item hmem)
    have htext : Text.concat ["[", Layout.spaced.lineBreak (depth + 1), first, more,
        Layout.spaced.lineBreak depth, "]"] =
          CodePoint.ofChar '[' :: (first ++ (more ++ [CodePoint.ofChar ']'])) := by
      simp [Text.concat, Layout.spaced, Layout.lineBreak, Text.ofString]
    rw [htext] at hleft hlevels
    simp only [List.length_cons, List.length_append] at hlevels
    obtain ⟨texts, rfl, htexts⟩ := exists_listed_items scope.bracketed hitems hmore
      (show _ ≤ levels by omega)
    have hfirst' : IsItem _ ']' scope.bracketed _ _ :=
      isItem_spreadable hitem.1 hitem.2 hfirst (show _ ≤ levels by omega)
    have hchars : Text.chars (CodePoint.ofChar '[' ::
        (first ++ (listed texts ++ [CodePoint.ofChar ']']))) ++ rest =
          '[' :: (Text.chars first ++ (Text.chars (listed texts) ++ ']' :: rest)) := by
      simp
    rw [hchars] at hleft
    have hitems' : Items _ ']' scope.bracketed _ (']' :: rest) _ :=
      items_listed (by decide) htexts hfirst' (hfirst'.leadsTo _)
    exact reads_operand_array hleft
      (hitems'.reads rfl (by decide) (by decide) (by decide)) hrest

private theorem readsAsOperand_object {fields : List (Text × Json)}
    (h : ∀ field ∈ fields, ReadsAsTree field.2) : ReadsAsOperand (.object fields) := by
  intro hvalue depth levels t hprint hlevels scope left rest hleft hrest
  cases fields with
  | nil =>
    cases hprint
    refine reads_operand_object hleft ?_ hrest
    exact reads_commaItems_nil rfl (by decide) (by decide) (by decide)
  | cons field fields =>
    obtain ⟨key, value⟩ := field
    obtain ⟨first, more, hfirst, hmore, rfl⟩ := Json.printAt_object_ok_iff.mp hprint
    obtain ⟨-, hkeys, hvalues⟩ := Json.isEmbeddable_object.mp hvalue
    obtain ⟨hkey, hkeys⟩ := List.forall_mem_cons.mp hkeys
    obtain ⟨hfield, hfields⟩ := List.forall_mem_cons.mp fun field hmem ↦
      And.intro (h field hmem) (hvalues field hmem)
    have htext : Text.concat ["\x7b", Layout.spaced.lineBreak (depth + 1), printString key,
        Layout.spaced.colon, first, more, Layout.spaced.lineBreak depth, "\x7d"] =
          CodePoint.ofChar '\x7b' ::
            (printString key ++ (": " ++ first) ++ (more ++ [CodePoint.ofChar '\x7d'])) := by
      simp [Text.concat, Layout.spaced, Layout.lineBreak, Layout.colon, Text.ofString]
    rw [htext] at hleft hlevels
    simp only [List.length_cons, List.length_append] at hlevels
    obtain ⟨texts, rfl, htexts⟩ := exists_listed_fields scope.bracketed hkeys hfields
      hmore (show _ ≤ levels by omega)
    have hfirst' : IsItem _ '\x7d' scope.bracketed _ _ :=
      isItem_objectMember hkey hfield.1 hfield.2 hfirst (show _ ≤ levels by omega)
    have hchars : Text.chars (CodePoint.ofChar '\x7b' :: (printString key ++ (": " ++ first) ++
        (listed texts ++ [CodePoint.ofChar '\x7d']))) ++ rest =
          '\x7b' :: (Text.chars (printString key ++ (": " ++ first)) ++
            (Text.chars (listed texts) ++ '\x7d' :: rest)) := by
      simp
    rw [hchars] at hleft
    have hitems : Items _ '\x7d' scope.bracketed _ ('\x7d' :: rest) _ :=
      items_listed (by decide) htexts hfirst' (hfirst'.leadsTo _)
    exact reads_operand_object hleft
      (hitems.reads rfl (by decide) (by decide) (by decide)) hrest

private theorem readsAsTree (value : Json) : ReadsAsTree value := by
  induction value using Json.induction with
  | null =>
    refine ReadsAsOperand.readsAsTree fun _ depth levels t hprint _ scope left rest hleft hrest ↦ ?_
    cases hprint
    exact reads_operand_constant (.inl ⟨rfl, rfl⟩) hleft hrest
  | bool b =>
    refine ReadsAsOperand.readsAsTree fun _ depth levels t hprint _ scope left rest hleft hrest ↦ ?_
    cases hprint
    cases b with
    | true => exact reads_operand_constant (.inr (.inl ⟨rfl, rfl⟩)) hleft hrest
    | false => exact reads_operand_constant (.inr (.inr ⟨rfl, rfl⟩)) hleft hrest
  | number n =>
    refine ReadsAsOperand.readsAsTree fun hvalue depth levels t hprint hlevels
      scope left rest hleft hrest ↦ ?_
    have hlength := length_pos hvalue hprint
    obtain ⟨levels, rfl⟩ : ∃ k, levels = k + 1 := ⟨levels - 1, by omega⟩
    rw [numeralOf_of_printNumber hprint] at hleft
    exact reads_operand_numeral hvalue hleft hrest
  | string s =>
    refine ReadsAsOperand.readsAsTree fun hvalue depth levels t hprint _
      scope left rest hleft hrest ↦ ?_
    cases hprint
    exact reads_operand_string (Json.isWritable_string.mp hvalue.isWritable) hleft hrest
  | array items ih => exact (readsAsOperand_array ih).readsAsTree
  | object fields ih => exact (readsAsOperand_object ih).readsAsTree

/-- The document of a value is read as the tree of the value. -/
theorem reads_print (hvalue : value.IsEmbeddable) (hprint : value.print .spaced = .ok t)
    (hlevels : 2 * t.length + 1 ≤ levels) (hleft : LeadsTo left (Text.chars t ++ rest))
    (hrest : Closes rest) :
    Reads (Grammar.ofDepth levels).expression scope left rest value.tree :=
  readsAsTree value hvalue hprint hlevels hleft hrest

end Script.Expressions

end StoryCatalog
