import Mathlib.Data.List.TakeWhile
import StoryCatalog.Json.Printer
import StoryCatalog.Literal.Escape
import StoryCatalog.Proofs.Number.Spelling
import StoryCatalog.Proofs.Script.Tokens
import StoryCatalog.Proofs.Text.Characters

/-!
# Literals of documents

A string of a document is a quoted literal, and a number without a sign is a numeric literal. A
string falls into its pieces: runs of code points that stand for themselves, and one escape
sequence for every other code point. Its pieces denote the string (`Escape.decodePieces_piecesOf`).
-/

namespace StoryCatalog

open Script Reading

variable {scope : Scope} {left rest : List Char}

/-! ### The pieces of a string -/

/-- Whether a code point stands for itself in a string of a document. -/
def CodePoint.isVerbatim (c : CodePoint) : Bool := c.val != 0x22 && c.val != 0x5C && 0x20 ≤ c.val

/-- The pieces of a string of a document. -/
def piecesOf : Text → List Piece
  | [] => []
  | c :: t =>
    if c.isVerbatim then
      .fragment (c :: t.takeWhile CodePoint.isVerbatim) ::
        piecesOf (t.dropWhile CodePoint.isVerbatim)
    else .escape (Json.escaped c) :: piecesOf t
termination_by t => t.length
decreasing_by
  · have := (List.dropWhile_suffix (l := t) CodePoint.isVerbatim).length_le
    rw [List.length_cons]
    omega
  · simp

theorem Json.escaped_of_isVerbatim {c : CodePoint} (h : c.isVerbatim = true) :
    Json.escaped c = [c] := by
  simp only [CodePoint.isVerbatim, Bool.and_eq_true, bne_iff_ne, decide_eq_true_eq] at h
  obtain ⟨⟨hquote, hbackslash⟩, hcontrol⟩ := h
  unfold Json.escaped
  rw [if_neg hquote, if_neg hbackslash]
  repeat rw [if_neg (by omega)]

/-- The letters and marks behind a backslash in a document, save that of a number. -/
def shortEscapes : List Char := ['"', '\\', 'n', 'r', 't', 'f', 'b']

/-- The escape sequences of documents: a letter, or a control character by its number. -/
theorem Json.escaped_cases {c : CodePoint} (h : c.isVerbatim = false) :
    (∃ d ∈ shortEscapes,
      Json.escaped c = [CodePoint.ofChar '\\', CodePoint.ofChar d] ∧
        c = Escape.letter (CodePoint.ofChar d)) ∨
      c.val < 0x20 ∧ Json.escaped c =
        CodePoint.ofChar '\\' :: CodePoint.ofChar 'u' :: CodePoint.hexDigits 4 c.val := by
  have hletter : ∀ {n : Nat} (d : Char), c.val = n → d ∈ shortEscapes →
      (Escape.letter (CodePoint.ofChar d)).val = n → ∃ e ∈ shortEscapes,
        [CodePoint.ofChar '\\', CodePoint.ofChar d] = [CodePoint.ofChar '\\', CodePoint.ofChar e] ∧
          c = Escape.letter (CodePoint.ofChar e) :=
    fun d hc hmem hd ↦ ⟨d, hmem, rfl, CodePoint.ext (hc.trans hd.symm)⟩
  unfold Json.escaped
  split
  · next hc => exact .inl (hletter '"' hc (by decide) (by decide))
  split
  · next hc => exact .inl (hletter '\\' hc (by decide) (by decide))
  split
  · next hc => exact .inl (hletter 'n' hc (by decide) (by decide))
  split
  · next hc => exact .inl (hletter 'r' hc (by decide) (by decide))
  split
  · next hc => exact .inl (hletter 't' hc (by decide) (by decide))
  split
  · next hc => exact .inl (hletter 'f' hc (by decide) (by decide))
  split
  · next hc => exact .inl (hletter 'b' hc (by decide) (by decide))
  split
  · next hc => exact .inr ⟨hc, rfl⟩
  · next hquote hbackslash _ _ _ _ _ hcontrol =>
    simp [CodePoint.isVerbatim, hquote, hbackslash] at h
    omega

private theorem decode_short : ∀ d ∈ shortEscapes,
    Escape.decode [CodePoint.ofChar '\\', CodePoint.ofChar d] =
      .ok [Escape.letter (CodePoint.ofChar d)] := List.all_iff_forall_prop.mp (by decide)

private theorem decode_control : ∀ n < 0x20, Escape.decode
    (CodePoint.ofChar '\\' :: CodePoint.ofChar 'u' :: CodePoint.hexDigits 4 n) =
      .ok [(CodePoint.ofNat? n).getD default] := by decide

/-- The escape sequence of a code point denotes it. -/
theorem Escape.decode_escaped {c : CodePoint} (h : c.isVerbatim = false) :
    Escape.decode (Json.escaped c) = .ok [c] := by
  rcases Json.escaped_cases h with ⟨d, hd, hescaped, hc⟩ | ⟨hc, hescaped⟩
  · rw [hescaped, hc, decode_short d hd]
  · rw [hescaped, decode_control c.val hc, CodePoint.ofNat?, dif_pos c.isLt]
    rfl

/-- The pieces of a string denote the string. -/
theorem Escape.decodePieces_piecesOf (t : Text) : Escape.decodePieces (piecesOf t) = .ok t := by
  fun_induction piecesOf t with
  | case1 => rfl
  | case2 c t hc ih =>
    rw [Escape.decodePieces, ih]
    change Except.ok (c :: t.takeWhile _ ++ t.dropWhile _) = _
    rw [List.cons_append, List.takeWhile_append_dropWhile]
  | case3 c t hc ih =>
    rw [Escape.decodePieces, Escape.decode_escaped (by simpa using hc), ih]
    rfl

/-! ### Quoted literals -/

theorem reads_upTo {stop? : Array Char → Nat → Option Nat}
    (h : left ++ rest <:+ scope.source.toList →
      stop? scope.source (scope.offset (left ++ rest)) = some (scope.offset rest)) :
    Reads (upTo stop?) scope (left ++ rest) rest (Text.ofChars left) := by
  intro hleft
  refine ⟨(List.suffix_append left rest).trans hleft, ?_⟩
  rw [upTo, h hleft]
  dsimp only
  rw [Scope.extract_offset hleft]

/-- A line end behind a return or a question mark belongs to an escape sequence, but for a
return. -/
def isTakenBehind (d c : Char) : Bool :=
  (d = '\r' || d = '?') && isLineEnd c && c != '\r'

/-- Behind a backslash, a character that begins no number is an escape sequence, with the line end
that it takes in. -/
private theorem endOfEscape?_eq {d : Char} (hx : d ≠ 'x') (hu : d ≠ 'u')
    (hdigit : ('0' ≤ d && d ≤ '7') = false) (hleft : '\\' :: d :: rest <:+ scope.source.toList) :
    endOfEscape? scope.source (scope.offset ('\\' :: d :: rest)) =
      some (scope.offset ('\\' :: d :: rest) +
        if rest.head?.any (isTakenBehind d) then 3 else 2) := by
  have hnext : scope.source[scope.offset ('\\' :: d :: rest) + 2]? = rest.head? := by
    rw [Scope.getElem?_offset hleft 2, List.head?_eq_getElem?]
    rfl
  unfold endOfEscape?
  rw [Scope.getElem?_offset hleft 1]
  split
  · next h => cases h
  · next h => exact absurd (Option.some.inj h) hx
  · next h => exact absurd (Option.some.inj h) hu
  · next c _ _ h =>
    obtain rfl : d = c := Option.some.inj h
    rw [hdigit, if_neg Bool.false_ne_true, hnext]
    cases rest.head? with
    | none => simp
    | some c =>
      simp only [Option.map_some, Option.some.injEq, Option.any_some, isTakenBehind, Bool.and_assoc,
        Bool.decide_eq_true]
      split <;> rfl

/-- A backslash in front of a character that begins no number is an escape sequence. -/
theorem endOfEscape?_single {d : Char} (hx : d ≠ 'x') (hu : d ≠ 'u')
    (hdigit : ('0' ≤ d && d ≤ '7') = false) (hrest : ∀ c ∈ rest.head?, isTakenBehind d c = false)
    (hleft : '\\' :: d :: rest <:+ scope.source.toList) :
    endOfEscape? scope.source (scope.offset ('\\' :: d :: rest)) = some (scope.offset rest) := by
  have hoffset : scope.offset rest = scope.offset ('\\' :: d :: rest) + 2 :=
    Scope.offset_append (show ['\\', d] ++ rest <:+ scope.source.toList from hleft)
  have hnone : rest.head?.any (isTakenBehind d) = false := by
    cases hhead : rest.head? with
    | none => rfl
    | some c => exact hrest c hhead
  rw [endOfEscape?_eq hx hu hdigit hleft, hnone, hoffset]
  rfl

/-- A line end that is taken in belongs to the escape sequence. -/
theorem endOfEscape?_taken {d c : Char} (h : isTakenBehind d c = true)
    (hleft : '\\' :: d :: c :: rest <:+ scope.source.toList) :
    endOfEscape? scope.source (scope.offset ('\\' :: d :: c :: rest)) =
      some (scope.offset rest) := by
  have hoffset : scope.offset rest = scope.offset ('\\' :: d :: c :: rest) + 3 :=
    Scope.offset_append (show ['\\', d, c] ++ rest <:+ scope.source.toList from hleft)
  have hd : d = '\r' ∨ d = '?' := by
    simp only [isTakenBehind, Bool.and_eq_true, Bool.or_eq_true, decide_eq_true_eq] at h
    exact h.1.1
  have hmarks : d ≠ 'x' ∧ d ≠ 'u' ∧ ('0' ≤ d && d ≤ '7') = false := by
    rcases hd with rfl | rfl <;> decide
  have hany : (c :: rest).head?.any (isTakenBehind d) = true := h
  rw [endOfEscape?_eq hmarks.1 hmarks.2.1 hmarks.2.2 hleft, hany, hoffset]
  rfl

private theorem not_marks_of_mem_shortEscapes : ∀ d ∈ shortEscapes,
    d ≠ 'x' ∧ d ≠ 'u' ∧ ('0' ≤ d && d ≤ '7') = false ∧ d ≠ '\r' ∧ d ≠ '?' :=
  List.all_iff_forall_prop.mp (by decide)

private theorem endOfEscape?_short {d : Char} (hd : d ∈ shortEscapes)
    (hleft : '\\' :: d :: rest <:+ scope.source.toList) :
    endOfEscape? scope.source (scope.offset ('\\' :: d :: rest)) = some (scope.offset rest) := by
  obtain ⟨hx, hu, hdigit, hreturn, hquestion⟩ := not_marks_of_mem_shortEscapes d hd
  refine endOfEscape?_single hx hu hdigit ?_ hleft
  intro c _
  simp [isTakenBehind, hreturn, hquestion]

/-- A run that fills the source up to a position ends there. -/
theorem endOfRun_extract {p : Char → Bool} {run : List Char} (hrun : ∀ c ∈ run, p c = true)
    (hleft : run ++ rest <:+ scope.source.toList) :
    endOfRun (scope.source.extract 0 (scope.offset (run ++ rest) + run.length)) p
      (scope.offset (run ++ rest)) = scope.offset (run ++ rest) + run.length := by
  have hdrop : (scope.source.extract 0 (scope.offset (run ++ rest) + run.length)).toList.drop
      (scope.offset (run ++ rest)) = run := by
    rw [Array.toList_extract, List.extract_eq_take_drop, List.drop_zero, Nat.sub_zero,
      List.drop_take, Nat.add_sub_cancel_left, Scope.drop_offset hleft, List.take_left]
  rw [endOfRun_eq, hdrop, List.takeWhile_eq_self_iff.mpr hrun]

/-- Four digits behind `u` are an escape sequence. -/
theorem endOfEscape?_number {digits : List Char} (hlength : digits.length = 4)
    (hdigits : ∀ c ∈ digits, isHexDigit c = true)
    (hleft : '\\' :: 'u' :: digits ++ rest <:+ scope.source.toList) :
    endOfEscape? scope.source (scope.offset ('\\' :: 'u' :: digits ++ rest)) =
      some (scope.offset rest) := by
  have hsuffix : digits ++ rest <:+ scope.source.toList :=
    (List.suffix_append ['\\', 'u'] (digits ++ rest)).trans hleft
  have hstart : scope.offset (digits ++ rest) =
      scope.offset ('\\' :: 'u' :: digits ++ rest) + 2 :=
    Scope.offset_append (show ['\\', 'u'] ++ (digits ++ rest) <:+ scope.source.toList from hleft)
  have hrest : scope.offset rest = scope.offset ('\\' :: 'u' :: digits ++ rest) + 6 := by
    rw [Scope.offset_append hsuffix, hstart, hlength]
  have hhead : scope.source[scope.offset ('\\' :: 'u' :: digits ++ rest) + 2]? = digits.head? := by
    rw [← hstart, Scope.head?_offset hsuffix, List.head?_append_of_ne_nil digits]
    exact List.ne_nil_of_length_pos (by omega)
  have hbrace : ¬ digits.head? = some '\x7b' := fun h ↦
    absurd (hdigits '\x7b' (List.mem_of_mem_head? h)) (by decide)
  have hrun := endOfRun_extract hdigits hsuffix
  rw [hstart, hlength] at hrun
  unfold endOfEscape?
  rw [Scope.getElem?_offset hleft 1]
  change (if scope.source[_]? = some '\x7b' then _ else if endOfRun _ _ _ = _ then _ else _) = _
  rw [hhead, if_neg hbrace, if_pos hrun, hrest]
  exact congrArg some hrun

private theorem hexDigits_control : ∀ n < 0x20,
    (Text.chars (CodePoint.hexDigits 4 n)).length = 4 ∧
      (Text.chars (CodePoint.hexDigits 4 n)).all isHexDigit = true ∧
      (CodePoint.hexDigits 4 n).IsScalar := by decide

/-- The escape sequence of a code point is read as one. -/
theorem reads_escape {c : CodePoint} (hc : c.isVerbatim = false) :
    Reads escape scope (Text.chars (Json.escaped c) ++ rest) rest (Json.escaped c) := by
  have hread : Reads escape scope (Text.chars (Json.escaped c) ++ rest) rest
      (Text.ofChars (Text.chars (Json.escaped c))) := by
    refine reads_upTo fun hleft ↦ ?_
    rcases Json.escaped_cases hc with ⟨d, hd, hescaped, -⟩ | ⟨hcontrol, hescaped⟩
    · rw [hescaped] at hleft ⊢
      rw [Text.chars_cons, Text.chars_cons, CodePoint.char_ofChar, CodePoint.char_ofChar] at hleft ⊢
      exact endOfEscape?_short hd hleft
    · obtain ⟨hlength, hdigits, -⟩ := hexDigits_control c.val hcontrol
      rw [hescaped] at hleft ⊢
      rw [Text.chars_cons, Text.chars_cons, CodePoint.char_ofChar, CodePoint.char_ofChar] at hleft ⊢
      exact endOfEscape?_number hlength (List.all_eq_true.mp hdigits) hleft
  have hscalar : (Json.escaped c).IsScalar := by
    rcases Json.escaped_cases hc with ⟨d, -, hescaped, -⟩ | ⟨hcontrol, hescaped⟩
    · rw [hescaped, Text.isScalar_cons, Text.isScalar_cons]
      exact ⟨rfl, CodePoint.isSurrogate_ofChar d, Text.isScalar_nil⟩
    · rw [hescaped, Text.isScalar_cons, Text.isScalar_cons]
      exact ⟨rfl, rfl, (hexDigits_control c.val hcontrol).2.2⟩
  rwa [Text.ofChars_chars hscalar] at hread

variable {quote : Char}

/-- At the closing quote there is no more piece. -/
theorem reads_piece_none : Reads (piece quote) scope (quote :: rest) (quote :: rest) none := by
  refine reads_peek.bind ?_
  rw [List.head?_cons]
  dsimp only
  rw [if_pos rfl]
  exact .pure

/-- An escape sequence is a piece. -/
theorem reads_piece_token {token : List Char} {text : Text} (hquote : quote ≠ '\\')
    (hhead : (token ++ rest).head? = some '\\')
    (h : Reads escape scope (token ++ rest) rest text) :
    Reads (piece quote) scope (token ++ rest) rest (some (.escape text)) := by
  refine reads_peek.bind ?_
  rw [hhead]
  dsimp only
  rw [if_neg hquote.symm, if_pos rfl]
  exact h.bind .pure

/-- Whether a character goes on with a run of plain characters in a quoted literal. -/
def isPlain (quote d : Char) : Bool := d != quote && d != '\\' && d != '\n' && d != '\r'

/-- A run of plain characters is a piece. -/
theorem reads_piece_run {run : List Char} (hne : run ≠ [])
    (hplain : ∀ d ∈ run, isPlain quote d = true)
    (hrest : ∀ d ∈ rest.head?, isPlain quote d = false) :
    Reads (piece quote) scope (run ++ rest) rest (some (.fragment (Text.ofChars run))) := by
  have hrun : Reads (upTo fun source position ↦ some (endOfRun source (isPlain quote) position))
      scope (run ++ rest) rest (Text.ofChars run) :=
    reads_upTo fun hleft ↦ congrArg some (endOfRun_offset hleft hplain hrest)
  obtain ⟨c, run, rfl⟩ := List.exists_cons_of_ne_nil hne
  have hhead : isPlain quote c = true := hplain c List.mem_cons_self
  simp only [isPlain, Bool.and_eq_true, bne_iff_ne] at hhead
  obtain ⟨⟨⟨hquote, hbackslash⟩, hfeed⟩, hreturn⟩ := hhead
  refine reads_peek.bind ?_
  rw [List.cons_append, List.head?_cons]
  dsimp only
  rw [if_neg hquote, if_neg hbackslash, if_neg (by simp [hfeed, hreturn])]
  exact hrun.bind .pure

private theorem reads_piece_escape {c : CodePoint} (hc : c.isVerbatim = false) :
    Reads (piece '"') scope (Text.chars (Json.escaped c) ++ rest) rest
      (some (.escape (Json.escaped c))) := by
  have hhead : (Text.chars (Json.escaped c) ++ rest).head? = some '\\' := by
    rcases Json.escaped_cases hc with ⟨d, -, hescaped, -⟩ | ⟨-, hescaped⟩ <;> rw [hescaped] <;> rfl
  exact reads_piece_token (by decide) hhead (reads_escape hc)

private theorem isPlain_char {c : CodePoint} (hc : c.isVerbatim = true)
    (hscalar : c.isSurrogate = false) : isPlain '"' c.char = true := by
  have hne : ∀ d : Char, (CodePoint.ofChar d).isVerbatim = false → c.char ≠ d := by
    rintro d hd rfl
    rw [CodePoint.ofChar_char hscalar, hc] at hd
    cases hd
  simp [isPlain, hne '"' rfl, hne '\\' rfl, hne '\n' rfl, hne '\r' rfl]

private theorem reads_piece_fragment {c : CodePoint} {t : Text}
    (hverbatim : ∀ d ∈ c :: t, d.isVerbatim = true) (hscalar : Text.IsScalar (c :: t))
    (hrest : ∀ d ∈ rest.head?, isPlain '"' d = false) :
    Reads (piece '"') scope (Text.chars (c :: t) ++ rest) rest (some (.fragment (c :: t))) := by
  have hplain : ∀ d ∈ Text.chars (c :: t), isPlain '"' d = true := by
    intro d hd
    obtain ⟨e, he, rfl⟩ := List.mem_map.mp hd
    exact isPlain_char (hverbatim e he) (hscalar e he)
  have hrun : Reads (piece '"') scope _ rest _ := reads_piece_run (by simp) hplain hrest
  rwa [Text.ofChars_chars hscalar] at hrun

private theorem not_isPlain_head (t : Text) :
    ∀ d ∈ (Text.chars ((t.dropWhile CodePoint.isVerbatim).flatMap Json.escaped) ++
      '"' :: rest).head?, isPlain '"' d = false := by
  cases hdrop : t.dropWhile CodePoint.isVerbatim with
  | nil => simp [isPlain]
  | cons c more =>
    have hc : c.isVerbatim = false := by
      have := List.head?_dropWhile_not CodePoint.isVerbatim t
      rwa [hdrop] at this
    rcases Json.escaped_cases hc with ⟨d, -, hescaped, -⟩ | ⟨-, hescaped⟩ <;>
      simp [hescaped, isPlain]

private theorem flatMap_escaped_of_isVerbatim {t : Text}
    (h : ∀ c ∈ t, c.isVerbatim = true) : t.flatMap Json.escaped = t := by
  induction t with
  | nil => rfl
  | cons c t ih =>
    obtain ⟨hc, ht⟩ := List.forall_mem_cons.mp h
    rw [List.flatMap_cons, Json.escaped_of_isVerbatim hc, ih ht, List.singleton_append]

/-- The body of a string is read as its pieces, up to the closing quote. -/
theorem repeats_piece {t : Text} (ht : t.IsScalar) :
    Repeats (piece '"') scope (Text.chars (t.flatMap Json.escaped) ++ '"' :: rest) ('"' :: rest)
      (piecesOf t) := by
  fun_induction piecesOf t with
  | case1 => exact .stop reads_piece_none
  | case2 c t hc ih =>
    have hverbatim : ∀ d ∈ c :: t.takeWhile CodePoint.isVerbatim, d.isVerbatim = true :=
      List.forall_mem_cons.mpr ⟨hc, fun _ ↦ List.mem_takeWhile_imp⟩
    have happend : c :: t =
        (c :: t.takeWhile CodePoint.isVerbatim) ++ t.dropWhile CodePoint.isVerbatim := by
      rw [List.cons_append, List.takeWhile_append_dropWhile]
    rw [happend] at ht
    obtain ⟨hrun, hmore⟩ := Text.isScalar_append.mp ht
    rw [happend, List.flatMap_append, flatMap_escaped_of_isVerbatim hverbatim, Text.chars_append,
      List.append_assoc]
    refine .step (reads_piece_fragment hverbatim hrun (not_isPlain_head t)) ?_ (ih hmore)
    simp only [List.length_append, Text.chars_cons, List.length_cons]
    omega
  | case3 c t hc ih =>
    have hescaped : 0 < (Text.chars (Json.escaped c)).length := by
      rcases Json.escaped_cases (by simpa using hc) with ⟨d, -, hescaped, -⟩ | ⟨-, hescaped⟩ <;>
        simp [hescaped]
    rw [List.flatMap_cons, Text.chars_append, List.append_assoc]
    refine .step (reads_piece_escape (by simpa using hc)) ?_ (ih (Text.isScalar_cons.mp ht).2)
    simp only [List.length_append]
    omega

/-- A body between two quotes is read as a quoted literal with the pieces of the body. -/
theorem reads_quoted_of_repeats {body : List Char} {pieces : List Piece}
    (hquote : quote = '"' ∨ quote = '\'')
    (hbody : Repeats (piece quote) scope (body ++ quote :: rest) (quote :: rest) pieces)
    (hleft : LeadsTo left (quote :: (body ++ quote :: rest))) :
    Reads quoted scope left rest pieces := by
  refine (reads_next hleft).bind ?_
  rw [List.head?_cons]
  dsimp only
  rw [if_pos (by simpa using hquote)]
  have hmark : quote.toString.toList = [quote] := by
    rcases hquote with rfl | rfl <;> rfl
  have hopen : Reads (symbol quote.toString) scope left (body ++ quote :: rest) () := by
    apply reads_symbol
    rwa [hmark]
  have hclose : Reads (exactly quote.toString) scope (quote :: rest) rest () := by
    have hexactly : Reads (exactly quote.toString) scope _ rest _ := reads_exactly
    rwa [hmark] at hexactly
  exact hopen.bind (hbody.reads.bind (hclose.bind .pure))

/-- A string of a document is read as a quoted literal with the pieces of the string. -/
theorem reads_quoted {t : Text} (ht : t.IsScalar)
    (hleft : LeadsTo left (Text.chars (Json.printString t) ++ rest)) :
    Reads quoted scope left rest (piecesOf t) := by
  have hprint : Text.chars (Json.printString t) ++ rest =
      '"' :: (Text.chars (t.flatMap Json.escaped) ++ '"' :: rest) := by
    simp [Json.printString]
  rw [hprint] at hleft
  exact reads_quoted_of_repeats (.inl rfl) (repeats_piece ht) hleft

/-! ### Numeric literals -/

/-- What stands behind a value in a document or a statement. -/
def closers : List Char := [',', ']', '}', ';']

/-- Given characters begin with what stands behind a value. -/
def Closes (cs : List Char) : Prop := ∃ c ∈ cs.head?, c ∈ closers

/-- Given characters do not go on with the digits in front of them. -/
def EndsDigits (cs : List Char) : Prop := ∀ c ∈ cs.head?, c.isDigit = false ∧ c ≠ '_'

theorem isSurrogate_of_isDigit {c : CodePoint} (h : c.isDigit = true) : c.isSurrogate = false := by
  simp only [CodePoint.isDigit, Bool.and_eq_true, decide_eq_true_eq] at h
  simp only [CodePoint.isSurrogate, Bool.and_eq_false_iff, decide_eq_false_iff_not]
  omega

theorem isDigit_of_mem_chars {t : Text} (h : ∀ c ∈ t, c.isDigit = true) :
    ∀ c ∈ Text.chars t, c.isDigit = true := by
  have hchar : ∀ n < 10, (CodePoint.ofDigit n).char.isDigit = true := by decide
  intro c hc
  obtain ⟨d, hd, rfl⟩ := List.mem_map.mp hc
  obtain ⟨n, hn, rfl⟩ := CodePoint.exists_eq_ofDigit (h d hd)
  exact hchar n hn

theorem endOfDigits?_offset {q : Char → Bool} {digits : List Char} (hne : digits ≠ [])
    (hdigits : ∀ c ∈ digits, q c = true) (hrest : ∀ c ∈ rest.head?, q c = false ∧ c ≠ '_')
    (hleft : digits ++ rest <:+ scope.source.toList) (fuel : Nat) :
    endOfDigits? scope.source q (fuel + 1) (scope.offset (digits ++ rest)) =
      some (scope.offset rest) := by
  have hsuffix := (List.suffix_append digits rest).trans hleft
  have hlength := List.length_pos_iff.mpr hne
  have hmoved : ¬ scope.offset rest = scope.offset (digits ++ rest) := by
    rw [Scope.offset_append hleft]
    omega
  have hline : ¬ rest.head? = some '_' := fun h ↦ (hrest _ h).2 rfl
  rw [endOfDigits?, endOfRun_offset hleft hdigits fun c hc ↦ (hrest c hc).1, if_neg hmoved,
    Scope.head?_offset hsuffix, if_neg hline]

open Decimal

variable {whole part power : Text} {p : ℤ}

/-- What stands behind a value goes on with no numeric literal. -/
private theorem not_numeral_of_mem_closers : ∀ c ∈ closers,
    c.isDigit = false ∧ c ≠ '_' ∧ c ≠ '.' ∧ c ≠ 'e' ∧ c ≠ 'E' ∧ c ≠ 'n' :=
  List.all_iff_forall_prop.mp (by decide)

private theorem Closes.endsDigits (h : Closes rest) : EndsDigits rest := by
  obtain ⟨c, hhead, hc⟩ := h
  obtain ⟨hdigit, hline, -⟩ := not_numeral_of_mem_closers c hc
  intro d hd
  obtain rfl : c = d := Option.mem_unique hhead hd
  exact ⟨hdigit, hline⟩

private theorem endOfPower_signed {digits : List Char} {sign : Char} (hne : digits ≠ [])
    (hdigits : ∀ c ∈ digits, c.isDigit = true) (hrest : EndsDigits rest)
    (hsign : sign = '+' ∨ sign = '-')
    (hleft : 'e' :: sign :: digits ++ rest <:+ scope.source.toList) :
    endOfPower scope.source (scope.offset ('e' :: sign :: digits ++ rest)) = scope.offset rest := by
  have hstart : scope.offset (digits ++ rest) = scope.offset ('e' :: sign :: digits ++ rest) + 2 :=
    Scope.offset_append (show ['e', sign] ++ (digits ++ rest) <:+ scope.source.toList from hleft)
  have hdigits' := endOfDigits?_offset hne hdigits hrest
    ((List.suffix_append ['e', sign] (digits ++ rest)).trans hleft) scope.source.size
  have hsecond : scope.source[scope.offset ('e' :: sign :: digits ++ rest) + 1]? = some sign := by
    rw [Scope.getElem?_offset hleft 1]
    rfl
  have hsign' : (decide (some sign = some '+') || decide (some sign = some '-')) = true := by
    simpa using hsign
  rw [hstart] at hdigits'
  rw [endOfPower, Scope.head?_offset hleft, hsecond, if_pos hsign']
  change (endOfDigits? _ _ _ _).getD _ = _
  rw [hdigits']
  rfl

theorem endOfPower_offset (hpower : IsPower power p) (hrest : Closes rest)
    (hleft : Text.chars power ++ rest <:+ scope.source.toList) :
    endOfPower scope.source (scope.offset (Text.chars power ++ rest)) = scope.offset rest := by
  cases hpower with
  | none =>
    obtain ⟨c, hhead, hc⟩ := hrest
    obtain ⟨-, -, -, hlower, hupper, -⟩ := not_numeral_of_mem_closers c hc
    rw [Text.chars_nil, List.nil_append] at hleft ⊢
    rw [endOfPower, Scope.head?_offset hleft, Option.mem_def.mp hhead]
    dsimp only
    rw [if_neg (by simp [hlower, hupper])]
  | positive hne hdigits =>
    exact endOfPower_signed (by simpa [Text.chars] using hne) (isDigit_of_mem_chars hdigits)
      hrest.endsDigits (.inl rfl) hleft
  | negative hne hdigits =>
    exact endOfPower_signed (by simpa [Text.chars] using hne) (isDigit_of_mem_chars hdigits)
      hrest.endsDigits (.inr rfl) hleft

/-- What stands behind the digits of a number. -/
private def behindDigits : List Char := '.' :: 'e' :: closers

private theorem exists_head_power (hpower : IsPower power p) (hrest : Closes rest) :
    ∃ c ∈ (Text.chars power ++ rest).head?, c ∈ behindDigits ∧ c ≠ '.' := by
  cases hpower with
  | none =>
    obtain ⟨c, hhead, hc⟩ := hrest
    exact ⟨c, hhead, by simp [behindDigits, hc], (not_numeral_of_mem_closers c hc).2.2.1⟩
  | positive => exact ⟨'e', rfl, by simp [behindDigits], by decide⟩
  | negative => exact ⟨'e', rfl, by simp [behindDigits], by decide⟩

private theorem exists_head_fraction (hpower : IsPower power p) (hrest : Closes rest) :
    ∃ c ∈ (Text.chars (fraction part) ++ (Text.chars power ++ rest)).head?,
      c ∈ behindDigits := by
  cases part with
  | nil =>
    obtain ⟨c, hhead, hc, -⟩ := exists_head_power hpower hrest
    exact ⟨c, hhead, hc⟩
  | cons c part => exact ⟨'.', rfl, by simp [behindDigits]⟩

private theorem endsDigits_of_head (h : ∃ c ∈ rest.head?, c ∈ behindDigits) : EndsDigits rest := by
  have hmem : ∀ c ∈ behindDigits, c.isDigit = false ∧ c ≠ '_' :=
    List.all_iff_forall_prop.mp (by decide)
  obtain ⟨c, hhead, hc⟩ := h
  intro d hd
  obtain rfl : c = d := Option.mem_unique hhead hd
  exact hmem c hc

theorem endOfBased?_eq_none {source : Array Char} {position : Nat} {marks : List Char}
    {q : Char → Bool}
    (h : source[position]? = some '0' → ∃ c ∈ source[position + 1]?, marks.contains c = false) :
    endOfBased? source position marks q = none := by
  unfold endOfBased?
  split
  · next c hsecond =>
    rw [if_neg]
    intro hzero
    rw [Bool.and_eq_true, decide_eq_true_eq] at hzero
    obtain ⟨d, hd, hmark⟩ := h hzero.1
    obtain rfl : c = d := Option.mem_unique hsecond hd
    rw [hmark] at hzero
    cases hzero.2
  · rfl

section

variable {tail : List Char} (hwhole : IsWhole whole)
  (hleft : Text.chars whole ++ tail <:+ scope.source.toList)

include hwhole hleft

/-- Behind a zero the whole part ends. -/
private theorem offset_behind_zero
    (h : scope.source[scope.offset (Text.chars whole ++ tail)]? = some '0') :
    scope.offset tail = scope.offset (Text.chars whole ++ tail) + 1 := by
  obtain ⟨first, more, rfl, hdigits, hzero⟩ := hwhole
  have hchar : first.char = '0' := Option.some.inj ((Scope.head?_offset hleft).symm.trans h)
  have hpoint : first = CodePoint.ofChar '0' := by
    rw [← hchar, CodePoint.ofChar_char (isSurrogate_of_isDigit (hdigits _ List.mem_cons_self))]
  obtain rfl := hzero (congrArg CodePoint.val hpoint)
  exact Scope.offset_append hleft

private theorem endOfBased?_whole (htail : ∃ c ∈ tail.head?, c ∈ behindDigits) {marks : List Char}
    (hmarks : (behindDigits.all fun d ↦ !marks.contains d) = true) (q : Char → Bool) :
    endOfBased? scope.source (scope.offset (Text.chars whole ++ tail)) marks q = none := by
  obtain ⟨c, hhead, hc⟩ := htail
  have hmark : marks.contains c = false := by simpa using List.all_eq_true.mp hmarks c hc
  refine endOfBased?_eq_none fun h ↦ ⟨c, ?_, hmark⟩
  rw [← offset_behind_zero hwhole hleft h,
    Scope.head?_offset ((List.suffix_append (Text.chars whole) tail).trans hleft)]
  exact hhead

private theorem isDecimalInteger_whole : isDecimalInteger scope.source
    (scope.offset (Text.chars whole ++ tail)) (scope.offset tail) = true := by
  unfold isDecimalInteger
  split
  · next h =>
    rw [offset_behind_zero hwhole hleft h]
    simp
  · rfl

/-- The digits of a whole part are read as those of a decimal number: none stands for a base, and a
zero stands by itself. -/
private theorem endOfNumber?_whole (htail : ∃ c ∈ tail.head?, c ∈ behindDigits) :
    endOfNumber? scope.source (scope.offset (Text.chars whole ++ tail)) =
      if tail.head? = some '.' then
        some (endOfPower scope.source
          ((endOfDigits? scope.source Char.isDigit (scope.source.size + 1)
            (scope.offset tail + 1)).getD (scope.offset tail + 1)))
      else some (endOfPower scope.source (scope.offset tail)) := by
  have hne : Text.chars whole ≠ [] := by
    obtain ⟨first, more, rfl, -⟩ := hwhole
    simp
  have hdigits : ∀ c ∈ Text.chars whole, c.isDigit = true := by
    obtain ⟨first, more, rfl, hdigits, -⟩ := hwhole
    exact isDigit_of_mem_chars hdigits
  have hstop := endOfDigits?_offset hne hdigits (endsDigits_of_head htail) hleft scope.source.size
  have hsuffixed : ¬ tail.head? = some 'n' := by
    obtain ⟨c, hhead, hc⟩ := htail
    intro h
    obtain rfl : c = 'n' := Option.mem_unique hhead h
    exact absurd hc (by decide)
  unfold endOfNumber?
  dsimp only
  rw [endOfBased?_whole hwhole hleft htail (by decide),
    endOfBased?_whole hwhole hleft htail (by decide),
    endOfBased?_whole hwhole hleft htail (by decide), hstop]
  dsimp only [Option.orElse_eq_orElse, Option.orElse]
  rw [if_pos (isDecimalInteger_whole hwhole hleft),
    Scope.head?_offset ((List.suffix_append (Text.chars whole) tail).trans hleft),
    if_neg hsuffixed]
  refine if_congr Iff.rfl rfl ?_
  split
  · next hnone => rw [hnone]
  · rfl

end

private theorem isScalar_of_isDigit {t : Text} (h : ∀ c ∈ t, c.isDigit = true) : t.IsScalar :=
  fun c hc ↦ isSurrogate_of_isDigit (h c hc)

private theorem isScalar_fraction (hpart : ∀ c ∈ part, c.isDigit = true) :
    (fraction part).IsScalar := by
  rw [fraction]
  split
  · exact Text.isScalar_nil
  · exact Text.isScalar_cons.mpr ⟨rfl, isScalar_of_isDigit hpart⟩

private theorem isScalar_power (hpower : IsPower power p) : power.IsScalar := by
  cases hpower with
  | none => exact Text.isScalar_nil
  | positive _ hdigits =>
    rw [Text.isScalar_cons, Text.isScalar_cons]
    exact ⟨rfl, rfl, isScalar_of_isDigit hdigits⟩
  | negative _ hdigits =>
    rw [Text.isScalar_cons, Text.isScalar_cons]
    exact ⟨rfl, rfl, isScalar_of_isDigit hdigits⟩

theorem isScalar_numeral (hwhole : IsWhole whole) (hpart : ∀ c ∈ part, c.isDigit = true)
    (hpower : IsPower power p) : (whole ++ fraction part ++ power).IsScalar := by
  obtain ⟨c, more, rfl, hdigits, -⟩ := hwhole
  rw [Text.isScalar_append, Text.isScalar_append]
  exact ⟨⟨isScalar_of_isDigit hdigits, isScalar_fraction hpart⟩, isScalar_power hpower⟩

/-- A number without a sign is read as a numeric literal. -/
theorem reads_number (hwhole : IsWhole whole) (hpart : ∀ c ∈ part, c.isDigit = true)
    (hpower : IsPower power p) (hrest : Closes rest)
    (hleft : LeadsTo left (Text.chars (whole ++ fraction part ++ power) ++ rest)) :
    Reads number scope left rest (whole ++ fraction part ++ power) := by
  refine (reads_space hleft).bind ?_
  have hread : Reads (upTo endOfNumber?) scope
      (Text.chars (whole ++ fraction part ++ power) ++ rest) rest
      (Text.ofChars (Text.chars (whole ++ fraction part ++ power))) := by
    refine reads_upTo fun hsource ↦ ?_
    simp only [Text.chars_append, List.append_assoc] at hsource ⊢
    have htail : Text.chars (fraction part) ++ (Text.chars power ++ rest) <:+
        scope.source.toList := (List.suffix_append (Text.chars whole) _).trans hsource
    rw [endOfNumber?_whole hwhole hsource (exists_head_fraction hpower hrest)]
    cases part with
    | nil =>
      obtain ⟨c, hhead, -, hpoint⟩ := exists_head_power hpower hrest
      have hnone : ¬ (Text.chars power ++ rest).head? = some '.' := fun h ↦
        hpoint (Option.mem_unique hhead h)
      change (if (Text.chars power ++ rest).head? = some '.' then _ else
        some (endOfPower scope.source (scope.offset (Text.chars power ++ rest)))) = _
      rw [if_neg hnone, endOfPower_offset hpower hrest htail]
    | cons c part =>
      obtain ⟨d, hhead, hd, -⟩ := exists_head_power hpower hrest
      have hpoint : '.' :: (Text.chars (c :: part) ++ (Text.chars power ++ rest)) <:+
          scope.source.toList := htail
      have hsuffix := (List.suffix_cons _ _).trans hpoint
      have hdigits := endOfDigits?_offset (by simp) (isDigit_of_mem_chars hpart)
        (endsDigits_of_head ⟨d, hhead, hd⟩) hsuffix scope.source.size
      have hbehind := (List.suffix_append (Text.chars (c :: part)) _).trans hsuffix
      rw [Scope.offset_cons hpoint] at hdigits
      change (if some '.' = some '.' then some (endOfPower _ (Option.getD
        (endOfDigits? _ _ _ (scope.offset ('.' :: (Text.chars (c :: part) ++ _)) + 1)) _))
          else _) = _
      rw [if_pos rfl, hdigits, Option.getD_some, endOfPower_offset hpower hrest hbehind]
  rwa [Text.ofChars_chars (isScalar_numeral hwhole hpart hpower)] at hread

end StoryCatalog
