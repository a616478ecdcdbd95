import StoryCatalog.Proofs.Script.Operands
import StoryCatalog.Proofs.Script.Strings

/-!
# Template literals

Between backticks a body is spelled with the escape sequences of strict code and with characters
that stand for themselves, line ends and quotes among them. What is read of a template without
substitutions is its body as it is spelled (`Expressions.reads_template`); the body is searched for
escape sequences only when it is decoded, and each one is found where it is spelled
(`Escape.decodeTemplate_spell`).
-/

namespace StoryCatalog

open Script Reading

/-- Whether a character stands for itself in a template. -/
def isVerbatimInTemplate (d : Char) : Bool := d != '\\' && d != '$' && d.toNat != 0x60

/-- What may be spelled between two backticks. -/
def Script.StringPart.IsInTemplate : StringPart → Prop
  | .plain c => isVerbatimInTemplate c = true
  | part => part.IsSpelled '\x60'

variable {part : StringPart} {parts : List StringPart}

theorem Script.StringPart.IsInTemplate.isSpelled (h : part.IsInTemplate)
    (hescape : part.isEscape = true) : part.IsSpelled '\x60' := by
  cases part with
  | plain c => cases hescape
  | _ => exact h

/-! ### Decoding -/

namespace Escape

variable {t : Text}

/-- Behind a backslash a single character is taken, save a return in front of a line feed. -/
private theorem lengthInTemplate_single {c : Char}
    (hnumbered : numbered? (CodePoint.ofChar c :: t) = none)
    (hc : c = '\r' → ∀ d ∈ t.head?, d ≠ CodePoint.ofChar '\n') :
    lengthInTemplate (CodePoint.ofChar c :: t) = 1 := by
  unfold lengthInTemplate
  rw [hnumbered]
  cases t with
  | nil => rfl
  | cons d t =>
    refine if_neg ?_
    rw [Bool.and_eq_true, decide_eq_true_eq, decide_eq_true_eq]
    rintro ⟨hreturn, hd⟩
    exact hc (Char.toNat_inj.mp hreturn) d rfl (CodePoint.ext hd)

/-- An escape sequence is found in a template up to its end. -/
theorem lengthInTemplate_spelling (hescape : part.isEscape = true)
    (hspelled : part.IsSpelled '\x60')
    (hfeed : part = .continuation ['\r'] → ∀ c ∈ t.head?, c ≠ CodePoint.ofChar '\n') :
    lengthInTemplate (Text.ofChars part.spelling.tail ++ t) = part.spelling.tail.length := by
  have hnumbered := numbered?_spelling hescape hspelled t
  have hother : ∀ c : Char, part.spelling.tail = [c] → part.digits? = none →
      (c = '\r' → part = .continuation ['\r']) →
      lengthInTemplate (Text.ofChars part.spelling.tail ++ t) = part.spelling.tail.length := by
    intro c hspelling hdigits hreturn
    rw [hspelling, hdigits] at hnumbered
    rw [hspelling]
    exact lengthInTemplate_single hnumbered fun hc ↦ hfeed (hreturn hc)
  have hnumber : ∀ digits, part.digits? = some digits →
      lengthInTemplate (Text.ofChars part.spelling.tail ++ t) = part.spelling.tail.length := by
    intro digits hdigits
    unfold lengthInTemplate
    rw [hnumbered, hdigits]
    rfl
  cases part with
  | plain c => cases hescape
  | single c =>
    refine hother c rfl rfl ?_
    rintro rfl
    cases hspelled.2.2.2
  | zero => exact hother '0' rfl rfl (by decide)
  | byte digits => exact hnumber digits rfl
  | unit digits => exact hnumber digits rfl
  | point digits => exact hnumber digits rfl
  | continuation lineEnd =>
    simp only [StringPart.IsSpelled, lineEnds, List.mem_cons, List.not_mem_nil,
      or_false] at hspelled
    rcases hspelled with rfl | rfl | rfl | rfl | rfl
    · exact hother '\n' rfl rfl (by decide)
    · exact hother '\r' rfl rfl fun _ ↦ rfl
    · rfl
    · exact hother '\u2028' rfl rfl (by decide)
    · exact hother '\u2029' rfl rfl (by decide)

theorem decodeTemplate_cons {c : CodePoint} (hc : c ≠ CodePoint.ofChar '\\') (t : Text) :
    decodeTemplate (c :: t) = (decodeTemplate t).map (c :: ·) := by
  rw [decodeTemplate, if_neg (by simp [hc])]
  cases decodeTemplate t <;> rfl

/-- A backslash and the sequence behind it are decoded as one token. -/
theorem decodeTemplate_token {sequence value : Text} (hne : sequence ≠ [])
    (hlength : lengthInTemplate (sequence ++ t) = sequence.length)
    (hvalue : decode (CodePoint.ofChar '\\' :: sequence) = .ok value) :
    decodeTemplate (CodePoint.ofChar '\\' :: (sequence ++ t)) =
      (decodeTemplate t).map (value ++ ·) := by
  rw [decodeTemplate, if_pos (by simp [hne])]
  dsimp only
  rw [hlength, List.take_left, List.drop_left, hvalue]
  cases decodeTemplate t <;> rfl

/-- In front of the rest of a template a part is decoded by itself. -/
theorem decodeTemplate_part (hpart : part.IsInTemplate)
    (hfeed : part = .continuation ['\r'] → ∀ c ∈ t.head?, c ≠ CodePoint.ofChar '\n') :
    decodeTemplate (Text.ofChars part.spelling ++ t) = (decodeTemplate t).map (part.read ++ ·) := by
  cases hescape : part.isEscape with
  | false =>
    cases part with
    | plain c =>
      refine decodeTemplate_cons ?_ t
      intro heq
      rw [CodePoint.ofChar_inj.mp heq] at hpart
      cases hpart
    | _ => cases hescape
  | true =>
    have hspelled := hpart.isSpelled hescape
    have hlength := lengthInTemplate_spelling hescape hspelled hfeed
    have hvalue := decode_spelling hescape hspelled
    obtain ⟨c, tail, hspelling⟩ := exists_spelling_eq hescape hspelled
    rw [hspelling, List.tail_cons] at hlength
    rw [hspelling] at hvalue ⊢
    have hne : Text.ofChars (c :: tail) ≠ [] := by simp [Text.ofChars]
    have hlength : lengthInTemplate (Text.ofChars (c :: tail) ++ t) =
        (Text.ofChars (c :: tail)).length := by
      rw [hlength, Text.ofChars, List.length_map]
    exact decodeTemplate_token hne hlength hvalue

/-- A template is decoded part by part, if no line feed stands behind a continued return. -/
theorem decodeTemplate_spell (hparts : ∀ part ∈ parts, part.IsInTemplate)
    (hfeed : ∀ front rest, parts ≠ front ++ .continuation ['\r'] :: .plain '\n' :: rest) :
    decodeTemplate (Text.ofChars (spell parts)) = .ok (parts.flatMap StringPart.read) := by
  induction parts with
  | nil =>
    rw [spell, List.flatMap_nil, Text.ofChars, List.map_nil, decodeTemplate, List.flatMap_nil]
  | cons part parts ih =>
    obtain ⟨hpart, hrest⟩ := List.forall_mem_cons.mp hparts
    have ih := ih hrest fun front rest hparts ↦ hfeed (part :: front) rest (by rw [hparts]; rfl)
    rw [spell_cons, Text.ofChars, List.map_append]
    refine (decodeTemplate_part hpart ?_).trans ?_
    · rintro rfl c hc rfl
      rw [List.head?_map, Option.mem_def, Option.map_eq_some_iff] at hc
      obtain ⟨d, hd, hc⟩ := hc
      obtain rfl : d = '\n' := CodePoint.ofChar_inj.mp hc
      rcases eq_of_mem_head?_spell hd with hslash | ⟨rest, rfl⟩
      · cases hslash
      · exact hfeed [] rest rfl
    · change (decodeTemplate (Text.ofChars (spell parts))).map _ = _
      rw [ih]
      rfl

end Escape

/-! ### Reading -/

namespace Script

variable {g : Grammar} {scope : Scope} {left rest cs : List Char} {pieces : List Piece}
  {text : Text}

/-- A template without substitutions falls into runs and escape sequences, if none of the sequences
takes in the character behind it. -/
theorem exists_fallsInto_template (hparts : ∀ part ∈ parts, part.IsInTemplate)
    (hends : ∀ front part c rest, parts = front ++ part :: .plain c :: rest → part.EndsBefore c) :
    ∃ pieces, FallsInto isVerbatimInTemplate '\x60' (spell parts) pieces
      (parts.flatMap StringPart.read) := by
  induction parts with
  | nil => exact ⟨[], .done⟩
  | cons part parts ih =>
    obtain ⟨hpart, hrest⟩ := List.forall_mem_cons.mp hparts
    obtain ⟨pieces, hpieces⟩ := ih hrest fun front ending c rest hparts ↦
      hends (part :: front) ending c rest (by rw [hparts]; rfl)
    rw [spell_cons, List.flatMap_cons]
    refine hpieces.cons (by decide) ?_ fun hescape ↦ ⟨hpart.isSpelled hescape, ?_⟩
    · rintro c rfl
      exact hpart
    · refine endsBefore_spell (hpart.isSpelled hescape) (by decide) ?_
      rintro c rest rfl
      exact hends [] part c rest rfl

namespace Expressions

/-- One round of reading the body of a template. -/
private def templateRound (g : Grammar) : Reading (Option (List Tree)) := do
  match ← peek with
  | none => fail
  | some c =>
    if c = '\\' then
      discard escape
      return some []
    else if c = '$' then
      exactly "$"
      if (← peek) == some '{' then
        exactly "\x7b"
        let inner ← bracketed (sequence g)
        symbol "\x7d"
        return some [inner]
      else return some []
    else if c.toNat = 0x60 then return none
    else
      discard <| upTo fun source position ↦
        some (endOfRun source (fun d ↦ d != '\\' && d != '$' && d.toNat != 0x60) position)
      return some []

private theorem reads_templateRound_none :
    Reads (templateRound g) scope ('\x60' :: rest) ('\x60' :: rest) none :=
  reads_peek.bind .pure

private theorem reads_templateRound_run {run : List Char} (hne : run ≠ [])
    (hrun : ∀ c ∈ run, isVerbatimInTemplate c = true)
    (hrest : ∀ c ∈ rest.head?, isVerbatimInTemplate c = false) :
    Reads (templateRound g) scope (run ++ rest) rest (some []) := by
  have hupTo : Reads (upTo fun source position ↦
      some (endOfRun source isVerbatimInTemplate position)) scope (run ++ rest) rest
        (Text.ofChars run) :=
    reads_upTo fun hleft ↦ congrArg some (endOfRun_offset hleft hrun hrest)
  obtain ⟨c, run, rfl⟩ := List.exists_cons_of_ne_nil hne
  have hc : isVerbatimInTemplate c = true := hrun c List.mem_cons_self
  simp only [isVerbatimInTemplate, Bool.and_eq_true, bne_iff_ne] at hc
  obtain ⟨⟨hslash, hdollar⟩, hbacktick⟩ := hc
  refine reads_peek.bind ?_
  rw [List.cons_append, List.head?_cons]
  dsimp only
  rw [if_neg hslash, if_neg hdollar, if_neg hbacktick]
  exact hupTo.discard.bind .pure

private theorem reads_templateRound_token {token : List Char} {text : Text}
    (hhead : token.head? = some '\\') (h : Reads escape scope (token ++ rest) rest text) :
    Reads (templateRound g) scope (token ++ rest) rest (some []) := by
  obtain ⟨more, rfl⟩ := List.head?_eq_some_iff.mp hhead
  exact reads_peek.bind (h.discard.bind .pure)

/-- The body of a template without substitutions is read up to the closing backtick. -/
theorem reads_templateBody (h : FallsInto isVerbatimInTemplate '\x60' cs pieces text) :
    Reads (templateBody g) scope (cs ++ '\x60' :: rest) ('\x60' :: rest) [] := by
  have hrepeats : Repeats (templateRound g) scope (cs ++ '\x60' :: rest) ('\x60' :: rest)
      (pieces.map fun _ ↦ []) :=
    h.repeats (by decide) reads_templateRound_none reads_templateRound_run
      reads_templateRound_token
  refine hrepeats.reads.bind ?_
  have hnone : (pieces.map fun _ ↦ ([] : List Tree)).flatten = [] := by simp
  rw [hnone]
  exact .pure

/-- A template without substitutions is read as its body. -/
theorem reads_template (h : FallsInto isVerbatimInTemplate '\x60' cs pieces text)
    (hleft : LeadsTo left ('\x60' :: (cs ++ '\x60' :: rest))) :
    Reads (template g) scope left rest (.template (Text.ofChars cs) []) := by
  have hopen : Reads (symbol "`") scope left (cs ++ '\x60' :: rest) () := reads_symbol hleft
  have hclose : Reads (exactly "`") scope ('\x60' :: rest) rest () := reads_exactly
  refine .of_isSuffix fun hsource ↦ hopen.bind ?_
  have hbody : cs ++ '\x60' :: rest <:+ scope.source.toList :=
    (List.suffix_cons _ _).trans (hleft.isSuffix hsource)
  refine reads_position.bind ((reads_templateBody h).bind ?_)
  exact (reads_textFrom hbody).bind (hclose.bind .pure)

/-- A template without substitutions is an operand. -/
theorem reads_operand_template {bang : Bool}
    (h : FallsInto isVerbatimInTemplate '\x60' cs pieces text)
    (hleft : LeadsTo left ('\x60' :: (cs ++ '\x60' :: rest))) (hrest : Closes rest) :
    Reads (operand g bang) scope left rest (.template (Text.ofChars cs) []) := by
  have hatom : Reads (atom g) scope left rest (.template (Text.ofChars cs) []) :=
    (reads_next hleft).bind (reads_template h hleft)
  have hpeek : Reads peekWord scope left left "" :=
    reads_peekWord_none hleft (by decide) (by decide)
  exact reads_operand hleft (by decide) hpeek (by decide) hatom hrest

end Expressions

end Script

end StoryCatalog
