import StoryCatalog.Proofs.Script.Values

/-!
# An exported constant

A module that exports one constant is read as that one statement, whatever its value is, if only the
value is read as an expression up to the semicolon (`Module.read_export`).
-/

namespace StoryCatalog.Script

open Reading

variable {g : Grammar} {scope : Scope} {left rest cs : List Char} {name : List Char} {tree : Tree}

/-- The characters between the name of a constant and its value. -/
def valueHead : List Char := " = ".toList

namespace Statements

/-! ### The binding -/

private theorem leadsTo_value : LeadsTo (valueHead ++ cs) ('=' :: ' ' :: cs) :=
  (LeadsTo.refl (by decide) (by decide)).blank

private theorem reads_pattern (hname : IsWord name)
    (hleft : LeadsTo left (name ++ (valueHead ++ cs))) :
    Reads (Expressions.pattern g false) scope left (valueHead ++ cs)
      (some (Text.ofChars name), []) := by
  have hends : EndsWord (valueHead ++ cs) := endsWord_cons (by decide) (by decide)
  have hword : Reads anyWord scope left (valueHead ++ cs) (Text.ofChars name) :=
    reads_anyWord hleft hname hends
  obtain ⟨c, hhead, hc⟩ := hname.head
  obtain ⟨more, rfl⟩ := List.head?_eq_some_iff.mp hhead
  have hbracket : c ≠ '[' := by
    rintro rfl
    exact absurd hc (by decide)
  have hbrace : c ≠ '\x7b' := by
    rintro rfl
    exact absurd hc (by decide)
  unfold Expressions.pattern
  refine (reads_next hleft).bind ?_
  rw [List.cons_append, List.head?_cons]
  dsimp only
  rw [if_neg hbracket, if_neg hbrace, if_neg Bool.false_ne_true]
  exact hword.bind .pure

/-- A name and a value behind an equals sign are a binding. -/
theorem reads_declarator {parts : List Tree}
    (hleft : LeadsTo left (name ++ (valueHead ++ cs)))
    (hpattern : Reads (g.pattern false) scope left (valueHead ++ cs)
      (some (Text.ofChars name), parts))
    (hvalue : Reads g.expression scope (' ' :: cs) rest tree) :
    Reads (declarator g) scope left rest
      ⟨lineOf scope.source (scope.offset (name ++ (valueHead ++ cs))),
        some (Text.ofChars name), some tree, parts⟩ := by
  have hline : Reads line scope left left _ := reads_lookAhead hleft fun _ ↦ rfl
  have hequalsBehind : LeadsTo (valueHead ++ cs) ('=' :: ' ' :: cs) := leadsTo_value
  have hmark : Reads peekPunctuation scope _ _ _ := reads_peekPunctuation hequalsBehind
  have hequals : Reads (symbol "=") scope (valueHead ++ cs) (' ' :: cs) () :=
    reads_symbol hequalsBehind
  have htypes : Reads g.typeIf scope (valueHead ++ cs) (valueHead ++ cs) [] :=
    (reads_symbolIf_false hequalsBehind rfl).bind .pure
  rw [← List.append_nil parts]
  refine hline.bind (hpattern.bind ?_)
  refine (reads_symbolIf_false hequalsBehind rfl).discard.bind (htypes.bind ?_)
  exact hmark.bind (hequals.bind (hvalue.bind (Reads.pure.bind .pure)))

/-! ### The declaration -/

variable {declared : Declarator}

/-- A constant that is no enumeration is declared with its bindings, up to a semicolon. -/
theorem reads_declaration (hname : IsWord name) (hnot : String.ofList name ≠ "enum")
    (hends : EndsWord cs)
    (hleft : LeadsTo left ("const".toList ++ ' ' :: (name ++ cs)))
    (hdeclarator : Reads (declarator g) scope (' ' :: (name ++ cs)) (';' :: rest) declared) :
    Reads (declaration g) scope left rest (.binding [declared]) := by
  have hconst : IsWord "const".toList := by decide
  have hblank : EndsWord (' ' :: (name ++ cs)) := endsWord_cons (by decide) (by decide)
  have hpeek : Reads peekWord scope left left "const" := reads_peekWord hleft hconst hblank
  have hany : Reads anyWord scope left (' ' :: (name ++ cs)) _ := reads_anyWord hleft hconst hblank
  have hsemicolon : LeadsTo (';' :: rest) (';' :: rest) := .refl (by decide) (by decide)
  have hbehind : LeadsTo (' ' :: (name ++ cs)) (name ++ cs) := hname.leadsTo.blank
  have henumeration : Fails (enumeration g) scope left :=
    (reads_wordIf rfl hleft hconst hblank).discard.bind_fails
      (fails_word hnot hbehind hname hends).bind
  have hdeclarators : Reads (declarators g) scope (' ' :: (name ++ cs)) (';' :: rest) [declared] :=
    hdeclarator.bind ((Repeats.stop ((reads_symbolIf_false hsemicolon rfl).bind .pure)).reads.bind
      .pure)
  have hvariable : Reads (variableDeclaration g) scope left rest (.binding [declared]) := by
    unfold variableDeclaration
    refine (reads_seesWordOf hleft hconst hblank _).bind ?_
    exact hany.discard.bind (hdeclarators.bind ((reads_endStatement hsemicolon).bind .pure))
  have hplain : Reads (plainDeclaration g) scope left rest (.binding [declared]) := by
    unfold plainDeclaration
    refine hpeek.bind ?_
    exact henumeration.orElse hvariable
  unfold declaration
  refine (reads_seesWord hleft hconst hblank _).bind ?_
  exact hplain

/-- An exported constant is an exported declaration. -/
theorem reads_exportStatement {bindings : List Declarator}
    (hleft : LeadsTo left ("export".toList ++ ' ' :: ("const".toList ++ ' ' :: cs)))
    (hdeclaration : Reads (declaration g) scope (' ' :: ("const".toList ++ ' ' :: cs)) rest
      (.binding bindings)) :
    Reads (exportStatement g) scope left rest (.exportDeclaration (.binding bindings)) := by
  have hblank : ∀ cs, EndsWord (' ' :: cs) := fun cs ↦ endsWord_cons (by decide) (by decide)
  have hconst : LeadsTo (' ' :: ("const".toList ++ ' ' :: cs)) ("const".toList ++ ' ' :: cs) :=
    (LeadsTo.refl (by decide) (by decide)).blank
  have hdecorators : Reads g.decorators scope left left [] :=
    (Repeats.stop ((reads_sees hleft "@").bind .pure)).reads.bind .pure
  have hexport : Reads (word "export") scope left (' ' :: ("const".toList ++ ' ' :: cs)) () :=
    reads_word rfl hleft (by decide) (hblank _)
  have hmark : Reads peekPunctuation scope _ _ _ := reads_peekPunctuation hconst
  have hword : ∀ expected, String.ofList "const".toList ≠ expected →
      Fails (word expected) scope (' ' :: ("const".toList ++ ' ' :: cs)) :=
    fun expected hne ↦ fails_word hne hconst (by decide) (hblank cs)
  refine hdecorators.bind (hexport.bind ((reads_sees hconst "\x7b").bind ?_))
  refine (reads_symbolIf_false hconst rfl).bind ?_
  refine (reads_wordIf_false (by decide) hconst (by decide) (hblank cs)).bind (hmark.bind ?_)
  refine (hword "as" (by decide)).bind.orElse ((hword "import" (by decide)).bind.orElse ?_)
  exact (hword "type" (by decide)).bind.orElse (hdeclaration.bind .pure)

/-- A statement that begins with `export` is an export. -/
theorem reads_ofGrammar {statement : Statement}
    (hleft : LeadsTo left ("export".toList ++ ' ' :: cs))
    (h : Reads (exportStatement g) scope left rest statement) :
    Reads (ofGrammar g) scope left rest statement :=
  (reads_peekWord hleft (by decide) (endsWord_cons (by decide) (by decide))).bind h

end Statements

namespace Module

/-! ### The module -/

private theorem reads_skipHypertextComments (hleft : LeadsTo left cs) (fuel : Nat)
    (hopen : "<!--".toList.isPrefixOf cs = false) (hclose : "-->".toList.isPrefixOf cs = false) :
    Reads (Statements.skipHypertextComments (fuel + 1)) scope left left () := by
  have hopen' : Reads (sees "<!--") scope _ _ _ := reads_sees hleft "<!--"
  have hclose' : Reads (sees "-->") scope _ _ _ := reads_sees hleft "-->"
  rw [hopen] at hopen'
  rw [hclose] at hclose'
  rw [Statements.skipHypertextComments]
  exact hopen'.bind (hclose'.bind .pure)

/-- A source of one statement that begins with a word is a module of this statement. -/
theorem reads_statements {statement : Statement} (hname : IsWord name)
    (hstatement : Reads g.statement (scope.asStatement (name ++ cs)) (name ++ cs) [] statement) :
    Reads (statements g) scope (name ++ cs) [] [statement] := by
  have hleft : LeadsTo (name ++ cs) (name ++ cs) := hname.leadsTo
  obtain ⟨c, hhead, hc⟩ := hname.head
  obtain ⟨more, rfl⟩ := List.head?_eq_some_iff.mp hhead
  have hne : ∀ d : Char, isWordStart d = false → d ≠ c := by
    rintro d hd rfl
    rw [hc] at hd
    cases hd
  have hmatch : ∀ (d : Char) (ds : List Char), isWordStart d = false →
      (d :: ds).isPrefixOf (c :: more ++ cs) = false := by
    intro d ds hd
    rw [List.cons_append, List.isPrefixOf_cons_cons, beq_eq_false_iff_ne.mpr (hne d hd),
      Bool.false_and]
  have hround : Reads (Statements.skipHypertextComments (scope.source.size + 1)) scope
      (c :: more ++ cs) (c :: more ++ cs) () :=
    reads_skipHypertextComments hleft _ (hmatch '<' ['!', '-', '-'] (by decide))
      (hmatch '-' ['-', '>'] (by decide))
  have hlast : Reads (Statements.skipHypertextComments (scope.source.size + 1)) scope [] [] () :=
    reads_skipHypertextComments .nil _ rfl rfl
  have hmark : (some c == some '#') = false := by
    rw [Option.some_beq_some]
    exact beq_eq_false_iff_ne.mpr (hne '#' (by decide)).symm
  have hshorter : ([] : List Char).length < (c :: more ++ cs).length := Nat.zero_lt_succ _
  unfold statements
  refine reads_read.bind ((reads_space hleft).bind (reads_peek.bind (reads_position.bind ?_)))
  rw [List.cons_append, List.head?_cons, hmark, Bool.false_and]
  dsimp only
  rw [if_neg Bool.false_ne_true]
  refine Repeats.reads (.step ?_ hshorter (.stop ?_))
  · exact hround.bind
      ((reads_space hleft).bind (reads_peek.bind (hstatement.asStatement.bind .pure)))
  · exact hlast.bind ((reads_space .nil).bind (reads_peek.bind .pure))

/-! ### One exported value -/

/-- A module that exports one constant, with a document as its value. -/
def exportOf (document : Text) : Text := ("export const X = " : Text) ++ document ++ ";"

private theorem chars_exportOf (document : Text) :
    Text.chars (exportOf document) = "export".toList ++ ' ' :: ("const".toList ++ ' ' ::
      ("X".toList ++ (valueHead ++ (Text.chars document ++ [';'])))) := by
  simp [exportOf, valueHead]

variable {document : Text}

private theorem exists_reads_exportOf (scope : Scope) {levels : Nat}
    (hvalue : Reads (Grammar.ofDepth (levels + 1)).expression scope
      (' ' :: (Text.chars document ++ [';'])) [';'] tree) :
    ∃ line, Reads (Grammar.ofDepth (levels + 2)).statement scope
      ("export".toList ++ ' ' :: ("const".toList ++ ' ' ::
        ("X".toList ++ (valueHead ++ (Text.chars document ++ [';']))))) []
      (.exportDeclaration (.binding [⟨line, some "X", some tree, []⟩])) := by
  have hname : IsWord "X".toList := by decide
  have hconst : IsWord "const".toList := by decide
  have hexport : IsWord "export".toList := by decide
  have hends : EndsWord (valueHead ++ (Text.chars document ++ [';'])) :=
    endsWord_cons (by decide) (by decide)
  have hpattern : Reads ((Grammar.ofDepth (levels + 1)).pattern false) scope _
      (valueHead ++ (Text.chars document ++ [';'])) (some (Text.ofChars "X".toList), []) :=
    Statements.reads_pattern hname hname.leadsTo.blank
  have hdeclaration := Statements.reads_declaration hname (by decide) hends hconst.leadsTo.blank
    (Statements.reads_declarator hname.leadsTo.blank hpattern hvalue)
  exact ⟨_, Statements.reads_ofGrammar hexport.leadsTo
    (Statements.reads_exportStatement hexport.leadsTo hdeclaration)⟩

/-- A module that exports what is read as an expression is read as this export. -/
theorem exists_read_exportOf (dialect : Dialect)
    (hvalue : ∀ (scope : Scope) (levels : Nat), 2 * document.length ≤ levels →
      Reads (Grammar.ofDepth (levels + 1)).expression scope
        (' ' :: (Text.chars document ++ [';'])) [';'] tree) :
    ∃ line, read dialect (Text.chars (exportOf document)) =
      .ok [.exportDeclaration (.binding [⟨line, some "X", some tree, []⟩])] := by
  let scope : Scope := { source := (Text.chars (exportOf document)).toArray, dialect }
  have hstart : scope.offset (Text.chars (exportOf document)) = 0 := Nat.sub_self _
  have hsize : document.length ≤ scope.source.size := by
    rw [List.size_toArray, Text.length_chars]
    simp only [exportOf, List.length_append]
    omega
  obtain ⟨line, hstatement⟩ := exists_reads_exportOf (scope.asStatement _)
    (hvalue _ (4 * scope.source.size + 62) (by omega))
  have hread := reads_statements (by decide) hstatement
  rw [← chars_exportOf] at hread
  obtain ⟨-, hread⟩ := hread (List.suffix_refl _)
  rw [hstart] at hread
  refine ⟨line, ?_⟩
  unfold read
  dsimp only
  rw [hread]

/-- The module that exports the document of a value is read as the export of its tree. -/
theorem exists_read_exportOf_print (dialect : Dialect) {value : Json} (hvalue : value.IsEmbeddable)
    (hprint : value.print .spaced = .ok document) :
    ∃ line, read dialect (Text.chars (exportOf document)) =
      .ok [.exportDeclaration (.binding [⟨line, some "X", some value.tree, []⟩])] := by
  refine exists_read_exportOf dialect fun scope levels hlevels ↦ ?_
  exact Expressions.reads_print hvalue hprint (by omega)
    (Expressions.leadsTo_printAt hvalue hprint).blank ⟨';', rfl, by decide⟩

end Module

end StoryCatalog.Script
