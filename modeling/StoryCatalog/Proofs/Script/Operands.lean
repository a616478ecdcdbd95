import StoryCatalog.Proofs.Script.Literals
import StoryCatalog.Script.Module

/-!
# Operands that nothing follows

An expression is an operand with everything that stands behind it. Where a value is closed by a
comma, a bracket, a brace or a semicolon, no suffix, operator, assignment or condition follows, so
the expression is the operand and the operand is its atom.
-/

namespace StoryCatalog.Script.Expressions

open Reading

variable {g : Grammar} {scope : Scope} {left rest cs : List Char} {c : Char} {tree : Tree}

/-! ### Behind a value -/

private theorem exists_closer (h : Closes rest) :
    ∃ c cs, rest = c :: cs ∧ c ∈ closers ∧ LeadsTo rest rest := by
  obtain ⟨c, hhead, hc⟩ := h
  obtain ⟨cs, rfl⟩ := List.head?_eq_some_iff.mp hhead
  have hplain : ∀ c ∈ closers, isSpace c = false ∧ c ≠ '/' :=
    List.all_iff_forall_prop.mp (by decide)
  exact ⟨c, cs, rfl, hc, .refl (hplain c hc).1 (hplain c hc).2⟩

/-- The punctuation behind a value is one of four marks. -/
private theorem reads_peekPunctuation_closes (scope : Scope) (h : Closes rest) :
    ∃ mark, (mark = "," ∨ mark = "]" ∨ mark = "\x7d" ∨ mark = ";") ∧
      Reads peekPunctuation scope rest rest mark := by
  obtain ⟨c, cs, rfl, hc, hleads⟩ := exists_closer h
  have hmark : Reads peekPunctuation scope _ _ _ := reads_peekPunctuation hleads
  have hheads : ∀ c ∈ closers, c ∉ longHeads ∧
      (c.toString = "," ∨ c.toString = "]" ∨ c.toString = "\x7d" ∨ c.toString = ";") :=
    List.all_iff_forall_prop.mp (by decide)
  rw [punctuation_of_not_mem (hheads c hc).1] at hmark
  exact ⟨_, (hheads c hc).2, hmark⟩

/-- No word stands right behind a value. -/
private theorem reads_peekWord_closes (h : Closes rest) :
    Reads peekWord scope rest rest "" := by
  obtain ⟨c, cs, rfl, hc, hleads⟩ := exists_closer h
  have hplain : ∀ c ∈ closers, isWordStart c = false ∧ c ≠ '\\' :=
    List.all_iff_forall_prop.mp (by decide)
  exact reads_peekWord_none hleads (hplain c hc).1 (hplain c hc).2

/-- What gives the same with and without a line end in front of it. -/
private theorem reads_unlessLineEnd {α : Type} {reader : Reading α} {a : α}
    (h : Reads reader scope rest rest a) :
    Reads (do if ← lineEndCloses then return a else reader) scope rest rest a := by
  obtain ⟨closes, hcloses⟩ := exists_reads_lineEndCloses scope rest true
  refine hcloses.bind ?_
  split
  · exact .pure
  · exact h

theorem reads_suffix (h : Closes rest) (start : Nat) (calls bang : Bool) (tree : Tree) :
    Reads (suffix g start calls bang tree) scope rest rest none := by
  obtain ⟨mark, hmark, hpeek⟩ := reads_peekPunctuation_closes scope h
  refine reads_unlessLineEnd (hpeek.bind ?_)
  rcases hmark with rfl | rfl | rfl | rfl <;> exact .pure

theorem reads_suffixed (h : Closes rest) (start : Nat) (calls bang : Bool) (tree : Tree) :
    Reads (suffixed g start calls bang tree) scope rest rest tree := by
  unfold suffixed
  refine reads_read.bind ?_
  rw [suffixes]
  exact (reads_suffix h start calls bang tree).bind .pure

theorem reads_assigned (h : Closes rest) (start : Nat) (tree : Tree) :
    Reads (assigned g start tree) scope rest rest tree := by
  obtain ⟨mark, hmark, hpeek⟩ := reads_peekPunctuation_closes scope h
  refine reads_unlessLineEnd (hpeek.bind ?_)
  rcases hmark with rfl | rfl | rfl | rfl <;> exact .pure

theorem reads_operation (h : Closes rest) (start : Nat) (tree : Tree) :
    Reads (operation g start tree) scope rest rest none := by
  obtain ⟨mark, hmark, hpeek⟩ := reads_peekPunctuation_closes scope h
  refine reads_unlessLineEnd ((reads_peekWord_closes h).bind (hpeek.bind ?_))
  rcases hmark with rfl | rfl | rfl | rfl <;> exact reads_read.bind .pure

theorem reads_seesCondition (h : Closes rest) : Reads seesCondition scope rest rest false := by
  obtain ⟨mark, hmark, hpeek⟩ := reads_peekPunctuation_closes scope h
  refine reads_unlessLineEnd (hpeek.bind ?_)
  rcases hmark with rfl | rfl | rfl | rfl <;> exact .pure

/-! ### Operands and expressions -/

/-- A character that an atom begins with, and no operator in front of one. -/
def StartsAtom (c : Char) : Prop := c ∉ '~' :: longHeads

instance (c : Char) : Decidable (StartsAtom c) := inferInstanceAs (Decidable (_ ∉ _))

/-- The words that begin an operand without being one. -/
def prefixWords : List String := ["typeof", "void", "delete", "await", "yield", "new"]

private theorem beq_toString_of_startsAtom (hc : StartsAtom c) :
    (c.toString == "<") = false ∧ ["+", "-", "~", "!"].contains c.toString = false ∧
      (c.toString == "++" || c.toString == "--") = false := by
  have hne : ∀ {d : Char} (token : String), token.toList.head? = some d → d ∈ '~' :: longHeads →
      c.toString ≠ token := by
    rintro d token hhead hd rfl
    obtain rfl : c = d := Option.some.inj (by simpa using hhead)
    exact hc hd
  have hbeq : ∀ {d : Char} (token : String), token.toList.head? = some d → d ∈ '~' :: longHeads →
      (c.toString == token) = false :=
    fun token hhead hd ↦ beq_eq_false_iff_ne.mpr (hne token hhead hd)
  refine ⟨hbeq "<" rfl (by decide), ?_, ?_⟩
  · rw [List.contains_eq_mem, decide_eq_false_iff_not]
    simp only [List.mem_cons, List.not_mem_nil, or_false, not_or]
    exact ⟨hne "+" rfl (by decide), hne "-" rfl (by decide), hne "~" rfl (by decide),
      hne "!" rfl (by decide)⟩
  · rw [hbeq "++" rfl (by decide), hbeq "--" rfl (by decide)]
    rfl

/-- An atom that a value is closed behind is an operand. -/
theorem reads_operand {word : String} {bang : Bool} (hleft : LeadsTo left (c :: cs))
    (hc : StartsAtom c) (hword : Reads peekWord scope left left word) (hplain : word ∉ prefixWords)
    (hatom : Reads (atom g) scope left rest tree) (hrest : Closes rest) :
    Reads (operand g bang) scope left rest tree := by
  obtain ⟨hangle, hunary, hupdate⟩ := beq_toString_of_startsAtom hc
  have hmark : Reads peekPunctuation scope _ _ _ := reads_peekPunctuation hleft
  rw [punctuation_of_not_mem fun hmem ↦ hc (List.mem_cons_of_mem _ hmem)] at hmark
  simp only [prefixWords, List.mem_cons, List.not_mem_nil, or_false, not_or] at hplain
  obtain ⟨htypeof, hvoid, hdelete, hawait, hyield, hnew⟩ := hplain
  have hoperator : operatorWords.contains word = false := by
    simp [operatorWords, htypeof, hvoid, hdelete]
  unfold operand
  refine (reads_start hleft).bind (hmark.bind ?_)
  rw [hangle, hunary, hupdate]
  simp only [Bool.false_eq_true, if_false]
  refine hword.bind ?_
  rw [hoperator, beq_eq_false_iff_ne.mpr hawait, beq_eq_false_iff_ne.mpr hyield,
    beq_eq_false_iff_ne.mpr hnew]
  simp only [Bool.false_eq_true, if_false]
  split
  -- A bracket may begin a pattern too, which is read only where reading a value fails.
  case' isTrue => refine Reads.orElse ?_
  all_goals
    obtain ⟨mark, hmark, hpeek⟩ := reads_peekPunctuation_closes scope hrest
    refine hatom.bind ((reads_suffixed hrest _ _ _ tree).bind (hpeek.bind ?_))
    rcases hmark with rfl | rfl | rfl | rfl <;> exact reads_assigned hrest _ tree

/-- An operand that a value is closed behind is an expression. -/
theorem reads_ofGrammar (hleft : LeadsTo left cs)
    (hoperand : Reads (g.operand true) scope left rest tree) (hrest : Closes rest) :
    Reads (ofGrammar g) scope left rest tree := by
  unfold ofGrammar
  have hoperations : Reads (operations g (scope.offset cs) (scope.source.size + 1) tree) scope rest
      rest tree := by
    rw [operations]
    exact (reads_operation hrest _ tree).bind .pure
  refine (reads_start hleft).bind (hoperand.bind (reads_read.bind ?_))
  exact hoperations.bind ((reads_seesCondition hrest).bind .pure)

end StoryCatalog.Script.Expressions
