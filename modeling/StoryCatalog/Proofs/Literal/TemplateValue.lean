import StoryCatalog.Proofs.Literal.StringValue
import StoryCatalog.Proofs.Script.Templates

/-!
# The value of a template literal

A quoted literal comes to its value token by token, a template by a search through its body. Both
come to the same text for a body that can be spelled in either, and every text is the value of the
template in which it is guarded by backslashes (`decodesAlike_and_guarded`).
-/

namespace StoryCatalog

open Script Reading StringPart

/-- The tokens of a quoted body: the longest runs of plain characters, and one token for each escape
sequence. -/
def tokensOf : List StringPart → List Piece
  | [] => []
  | .plain c :: parts =>
    match tokensOf parts with
    | .fragment run :: pieces => .fragment (CodePoint.ofChar c :: run) :: pieces
    | pieces => .fragment [CodePoint.ofChar c] :: pieces
  | part :: parts => .escape (Text.ofChars part.spelling) :: tokensOf parts

/-- A template is read as a text, wherever it stands and as what a story file exports. -/
structure IsTemplateReadAs (body : List Char) (text : Text) : Prop where
  anywhere : Expression.ofTree (.template (Text.ofChars body) []) = .ok (.string text) ∧
    ∀ {g : Script.Grammar} {scope : Scope} {left rest : List Char},
      LeadsTo left ('\x60' :: (body ++ '\x60' :: rest)) →
        Reads (Expressions.template g) scope left rest (.template (Text.ofChars body) [])
  exported : ∀ path : Option Path, ∃ line,
    StoryFile.read path (("export const X = " : Text) ++
        Text.ofChars ('\x60' :: (body ++ ['\x60'])) ++ ";") =
      .ok { path, stories := .ofList [("X",
        { exportName := "X", line, initializer := .string text })] }

/-- A body comes to one text in a quoted literal and in a template; and without separators among
its plain characters, both literals are read so. -/
structure DecodesAlike (quote : Char) (parts : List StringPart) : Prop where
  tokens : Expression.ofTree (.string (tokensOf parts)) =
    .ok (.string (parts.flatMap StringPart.read))
  template : Expression.ofTree (.template (Text.ofChars (spell parts)) []) =
    .ok (.string (parts.flatMap StringPart.read))
  isReadAs : (∀ c, .plain c ∈ parts → isSeparator c = false) →
    IsReadAs (literalOf quote parts) (parts.flatMap StringPart.read) ∧
      IsTemplateReadAs (spell parts) (parts.flatMap StringPart.read)

/-- The characters that do not stand for themselves in a template. -/
def templateMarks : List Char := ['\\', '$', '\x60']

/-- A text with a backslash in front of each of these characters. -/
def guarded (t : Text) : Text :=
  t.flatMap fun c ↦ if c ∈ Text.ofChars templateMarks then [CodePoint.ofChar '\\', c] else [c]

variable {quote : Char} {part : StringPart} {parts : List StringPart}

/-! ### Tokens -/

theorem decodePieces_plain (c : Char) (parts : List StringPart) :
    Escape.decodePieces (tokensOf (.plain c :: parts)) =
      (Escape.decodePieces (tokensOf parts)).map (CodePoint.ofChar c :: ·) := by
  rw [tokensOf]
  split
  · next run pieces heq =>
    rw [heq, Escape.decodePieces, Escape.decodePieces]
    cases Escape.decodePieces pieces <;> rfl
  · next heq =>
    rw [Escape.decodePieces]
    cases Escape.decodePieces (tokensOf parts) <;> rfl

/-- The tokens of a body are decoded part by part. -/
theorem decodePieces_tokensOf (h : ∀ part ∈ parts, part.IsSpelled quote) :
    Escape.decodePieces (tokensOf parts) = .ok (parts.flatMap StringPart.read) := by
  induction parts with
  | nil => rfl
  | cons part parts ih =>
    obtain ⟨hpart, hrest⟩ := List.forall_mem_cons.mp h
    cases hescape : part.isEscape with
    | false =>
      cases part with
      | plain c =>
        rw [decodePieces_plain, ih hrest]
        rfl
      | _ => cases hescape
    | true =>
      have htokens : tokensOf (part :: parts) =
          .escape (Text.ofChars part.spelling) :: tokensOf parts := by
        cases part <;> first | rfl | cases hescape
      rw [htokens, Escape.decodePieces, decode_spelling hescape hpart, ih hrest]
      rfl

/-! ### Templates -/

theorem isVerbatimInTemplate_iff {c : Char} :
    isVerbatimInTemplate c = true ↔ c ∉ templateMarks := by
  have hbacktick : c.toNat = 0x60 ↔ c = '\x60' :=
    ⟨fun heq ↦ Char.toNat_inj.mp heq, fun heq ↦ heq ▸ rfl⟩
  simp [isVerbatimInTemplate, templateMarks, hbacktick, and_assoc]

/-- A template is read as what its parts are decoded to, if each escape sequence ends in front of
the character behind it. -/
theorem isTemplateReadAs_spell (hparts : ∀ part ∈ parts, part.IsInTemplate)
    (hends : ∀ front part c rest, parts = front ++ part :: .plain c :: rest → part.EndsBefore c) :
    IsTemplateReadAs (spell parts) (parts.flatMap StringPart.read) := by
  obtain ⟨pieces, hpieces⟩ := exists_fallsInto_template hparts hends
  have htree : Expression.ofTree (.template (Text.ofChars (spell parts)) []) =
      .ok (.string (parts.flatMap StringPart.read)) := by
    rw [Expression.ofTree, Escape.decodeTemplate_spell hparts]
    · rfl
    · intro front rest hfeed
      have htaken : isTakenBehind '\r' '\n' = false := hends front _ '\n' rest hfeed rfl
      revert htaken
      decide
  refine ⟨⟨htree, Expressions.reads_template hpieces⟩, fun path ↦ ?_⟩
  refine StoryFile.exists_read_exportOf_literal path (by simp) ?_ ?_ htree
  · intro scope levels
    have hleft : LeadsTo (' ' :: ('\x60' :: (spell parts ++ ['\x60']) ++ [';']))
        ('\x60' :: (spell parts ++ '\x60' :: [';'])) := by
      rw [List.cons_append, List.append_assoc]
      exact (LeadsTo.refl (by decide) (by decide)).blank
    have hrest : Closes [';'] := ⟨';', rfl, by decide⟩
    exact Expressions.reads_expression hleft
      (Expressions.reads_operand_template hpieces hleft hrest) hrest
  · simp [Tree.preorder, Tree.preorderAll, Tree.IsAssignment]

/-- A body between quotes is one between backticks, if backticks and dollar signs are no plain
characters of it. -/
theorem isInTemplate_of_isBody (h : IsBody quote parts)
    (hplain : ∀ c, .plain c ∈ parts → c ≠ '\x60' ∧ c ≠ '$') :
    ∀ part ∈ parts, part.IsInTemplate := by
  intro part hmem
  have hspelled := isSpelled_of_mem h hmem
  cases part with
  | plain c =>
    obtain ⟨hbacktick, hdollar⟩ := hplain c hmem
    have hslash : c ≠ '\\' := by
      rintro rfl
      simp [IsSpelled, isPlain] at hspelled
    exact isVerbatimInTemplate_iff.mpr (by simp [templateMarks, hslash, hdollar, hbacktick])
  | _ => exact hspelled

theorem isBody_of_append {front rest : List StringPart} (h : IsBody quote (front ++ rest)) :
    IsBody quote rest := by
  induction front with
  | nil => exact h
  | cons part front ih => exact ih h.2.2

theorem decodesAlike (hquote : quote = '"' ∨ quote = '\'') (h : IsBody quote parts)
    (hplain : ∀ c, .plain c ∈ parts → c ≠ '\x60' ∧ c ≠ '$') : DecodesAlike quote parts := by
  have hparts := isInTemplate_of_isBody h hplain
  refine ⟨?_, ?_, fun hseparator ↦ ?_⟩
  · rw [Expression.ofTree, decodePieces_tokensOf fun part ↦ isSpelled_of_mem h]
    rfl
  · rw [Expression.ofTree, Escape.decodeTemplate_spell hparts]
    · rfl
    · rintro front rest rfl
      have hfeed : IsSpelled quote (.plain '\n') := isSpelled_of_mem h (by simp)
      simp [IsSpelled, isPlain] at hfeed
  · have htakes : ∀ front part c rest, parts = front ++ part :: .plain c :: rest →
        part.takes c = false := by
      rintro front part c rest rfl
      exact takes_eq_false (hseparator c (by simp))
    refine ⟨?_, isTemplateReadAs_spell hparts ?_⟩
    · rw [← readText_of_takes htakes]
      exact isReadAs_literalOf hquote h
    · rintro front part c rest rfl
      refine endsBefore_of_isBody (isBody_of_append h) ?_ c rest rfl
      rintro d more heq
      cases heq
      exact htakes front part _ _ rfl

/-! ### Guarded texts -/

/-- The part that a character is guarded as. -/
def guardedPart (c : Char) : StringPart := if c ∈ templateMarks then .single c else .plain c

/-- The part of a mark is an escape sequence that takes in nothing and denotes the mark. -/
private theorem single_mark : ∀ c ∈ templateMarks, IsSpelled '\x60' (.single c) ∧
    escaped c = c ∧ c ≠ '\r' ∧ c ≠ '?' := List.all_iff_forall_prop.mp (by decide)

theorem isInTemplate_guardedPart (c : Char) : (guardedPart c).IsInTemplate := by
  unfold guardedPart
  split
  · next hmark => exact (single_mark c hmark).1
  · next hmark => exact isVerbatimInTemplate_iff.mpr hmark

theorem read_guardedPart (c : Char) : (guardedPart c).read = [CodePoint.ofChar c] := by
  unfold guardedPart
  split
  · next hmark => rw [StringPart.read, (single_mark c hmark).2.1]
  · rfl

theorem endsBefore_guardedPart (c d : Char) : (guardedPart c).EndsBefore d := by
  unfold guardedPart
  split
  · next hmark =>
    obtain ⟨-, -, hreturn, hquestion⟩ := single_mark c hmark
    simp [EndsBefore, isTakenBehind, hreturn, hquestion]
  · trivial

theorem guarded_cons (c : CodePoint) (t : Text) :
    guarded (c :: t) =
      (if c ∈ Text.ofChars templateMarks then [CodePoint.ofChar '\\', c] else [c]) ++ guarded t :=
  List.flatMap_cons

theorem guarded_ofChars (cs : List Char) :
    guarded (Text.ofChars cs) = Text.ofChars (spell (cs.map guardedPart)) := by
  induction cs with
  | nil => rfl
  | cons c cs ih =>
    have hmark : CodePoint.ofChar c ∈ Text.ofChars templateMarks ↔ c ∈ templateMarks :=
      List.mem_map_of_injective fun _ _ ↦ CodePoint.ofChar_inj.mp
    have hpart : Text.ofChars (guardedPart c).spelling =
        if c ∈ templateMarks then [CodePoint.ofChar '\\', CodePoint.ofChar c]
        else [CodePoint.ofChar c] := by
      unfold guardedPart
      split <;> rfl
    have hspell : Text.ofChars (spell ((c :: cs).map guardedPart)) =
        Text.ofChars (guardedPart c).spelling ++ Text.ofChars (spell (cs.map guardedPart)) :=
      List.map_append
    refine (guarded_cons _ (Text.ofChars cs)).trans ?_
    rw [ih, hspell, hpart]
    simp only [hmark]

/-- A guarded text is decoded as the text. -/
theorem decodeTemplate_guarded (t : Text) : Escape.decodeTemplate (guarded t) = .ok t := by
  induction t with
  | nil => rw [guarded, List.flatMap_nil, Escape.decodeTemplate]
  | cons c t ih =>
    rw [guarded_cons]
    split
    · next hmark =>
      obtain ⟨d, hd, rfl⟩ := List.mem_map.mp hmark
      obtain ⟨hspelled, hescaped, -⟩ := single_mark d hd
      have hsingle : (StringPart.single d).IsInTemplate := hspelled
      refine (Escape.decodeTemplate_part hsingle (by simp)).trans ?_
      rw [ih, StringPart.read, hescaped]
      rfl
    · next hmark =>
      rw [List.singleton_append, Escape.decodeTemplate_cons, ih]
      · rfl
      · rintro rfl
        exact hmark (by decide)

/-- The template of a guarded text is read as the text. -/
theorem isTemplateReadAs_guarded {t : Text} (h : t.IsScalar) :
    IsTemplateReadAs (Text.chars (guarded t)) t := by
  have hread : ((Text.chars t).map guardedPart).flatMap StringPart.read = t := by
    rw [List.flatMap_map]
    simp only [read_guardedPart]
    rw [← List.map_eq_flatMap]
    exact Text.ofChars_chars h
  have hspell : Text.chars (guarded t) = spell ((Text.chars t).map guardedPart) := by
    rw [← Text.chars_ofChars (spell _), ← guarded_ofChars, Text.ofChars_chars h]
  have hparts : ∀ part ∈ (Text.chars t).map guardedPart,
      part.IsInTemplate ∧ ∀ c, part.EndsBefore c := by
    intro part hmem
    obtain ⟨c, -, rfl⟩ := List.mem_map.mp hmem
    exact ⟨isInTemplate_guardedPart c, endsBefore_guardedPart c⟩
  have hends : ∀ front part c rest,
      (Text.chars t).map guardedPart = front ++ part :: .plain c :: rest → part.EndsBefore c := by
    intro front part c rest heq
    exact (hparts part (by simp [heq])).2 c
  have hreads := isTemplateReadAs_spell (fun part hmem ↦ (hparts part hmem).1) hends
  rwa [hread, ← hspell] at hreads

/-- A body of escape sequences and plain characters that can stand between quotes and backticks
comes to the same text in both literals. Every text is the value of the template that it is guarded
in. -/
theorem decodesAlike_and_guarded :
    (∀ quote parts, (quote = '"' ∨ quote = '\'') → IsBody quote parts →
      (∀ c, .plain c ∈ parts → c ≠ '\x60' ∧ c ≠ '$') → DecodesAlike quote parts) ∧
    ∀ t, Expression.ofTree (.template (guarded t) []) = .ok (.string t) ∧
      (t.IsScalar → IsTemplateReadAs (Text.chars (guarded t)) t) := by
  refine ⟨fun quote parts hquote hbody hplain ↦ decodesAlike hquote hbody hplain, fun t ↦ ⟨?_, ?_⟩⟩
  · rw [Expression.ofTree, decodeTemplate_guarded]
    rfl
  · exact isTemplateReadAs_guarded

/-- A body with an escape sequence of every kind in it, and a text of marks. -/
theorem decodesAlike_and_guarded_assorted :
    let parts : List StringPart := [.plain 'a', .plain ' ', .single 'n', .single '\\',
      .single '\x60', .single '$', .zero, .byte ['4', '1'], .unit ['0', '0', 'E', '9'],
      .continuation ['\r', '\n'], .point ['1', 'f', '6', '0', '0'], .continuation ['\r'],
      .plain 'z']
    let marks : Text := "\\`$\n"
    DecodesAlike '"' parts ∧ parts.flatMap StringPart.read = ("a \n\\`$\x00Aé😀z" : Text) ∧
      IsTemplateReadAs (Text.chars (guarded marks)) marks ∧
      guarded marks = ("\\\\\\`\\$\n" : Text) := by
  intro parts marks
  have hbody : IsBody '"' parts := by decide
  have hplain : ∀ c, .plain c ∈ parts → c ≠ '\x60' ∧ c ≠ '$' := by simp [parts]
  have halike := decodesAlike_and_guarded.1 '"' parts (.inl rfl) hbody hplain
  have hmarks := (decodesAlike_and_guarded.2 marks).2 (by decide)
  exact ⟨halike, by decide, hmarks, by decide⟩

end StoryCatalog
