import Mathlib.Data.Nat.Digits.Lemmas
import StoryCatalog.Proofs.Literal.Embedding
import StoryCatalog.Proofs.Script.Integers

/-!
# The values of integer literals

Every spelling of a natural number as an integer literal denotes the number, whatever its base, as
long as the number can be written in decimal (`denotesNat_of_isIntegerLiteral`).
-/

namespace StoryCatalog

open Script Reading Text Decimal

variable {base : Nat} {cs literal : List Char} {d n : Nat} {ds : List Nat}

/-! ### Digits -/

theorem Text.readDigits_eq_ofDigits (base : Nat) (ds : List Nat) :
    readDigits base ds = Nat.ofDigits base ds.reverse := by
  rw [Nat.ofDigits_eq_foldr, List.foldr_reverse, readDigits]
  simp only [Nat.cast_id, Nat.mul_comm base, Nat.add_comm]

/-- What is known of a digit in any letter case. -/
private theorem digitTable_spec : ∀ entry ∈ digitTable,
    (CodePoint.ofChar entry.1).lower = [CodePoint.ofHexDigit entry.2] ∧
      entry.1 ≠ 'Σ' ∧ entry.2 < 16 ∧ entry.1 ≠ '_' ∧ entry.1 ≠ 'n' ∧
        (entry.2 < 10 → CodePoint.ofChar entry.1 = CodePoint.ofDigit entry.2) :=
  List.all_iff_forall_prop.mp (by decide)

private theorem ofHexDigit_spec : ∀ d < 16,
    (CodePoint.ofHexDigit d).hexValue? = some d ∧ (CodePoint.ofHexDigit d).val < 0x80 ∧
      (CodePoint.ofHexDigit d).isBlank = false := by decide

/-- Without the underscores there is one character for each digit. -/
theorem Script.IsDigits.forall₂ (h : IsDigits base cs ds) :
    List.Forall₂ (IsDigitIn base) (cs.filter (· != '_')) ds := by
  have hkeep : ∀ {c d} (cs : List Char), IsDigitIn base c d →
      (c :: cs).filter (· != '_') = c :: cs.filter (· != '_') := fun cs hc ↦
    List.filter_cons_of_pos (bne_iff_ne.mpr (digitTable_spec _ hc.mem).2.2.2.1)
  have hskip : ∀ cs : List Char, ('_' :: cs).filter (· != '_') = cs.filter (· != '_') := fun cs ↦
    List.filter_cons_of_neg (by decide)
  induction h with
  | last hc =>
    rw [hkeep _ hc]
    exact .cons hc .nil
  | next hc _ ih =>
    rw [hkeep _ hc]
    exact .cons hc ih
  | separated hc _ ih =>
    rw [hkeep _ hc, hskip]
    exact .cons hc ih

theorem Script.IsDigits.ne_nil (h : IsDigits base cs ds) : ds ≠ [] := by
  cases h <;> exact List.cons_ne_nil _ _

theorem Script.IsDigits.not_mem_suffix (h : IsDigits base cs ds) : 'n' ∉ cs := by
  have hne : ∀ {c d}, IsDigitIn base c d → 'n' ≠ c :=
    fun hc ↦ (digitTable_spec _ hc.mem).2.2.2.2.1.symm
  induction h with
  | last hc => simpa using hne hc
  | next hc _ ih => exact List.not_mem_cons_of_ne_of_not_mem (hne hc) ih
  | separated hc _ ih =>
    exact List.not_mem_cons_of_ne_of_not_mem (hne hc)
      (List.not_mem_cons_of_ne_of_not_mem (by decide) ih)

private theorem baseMarks_spec : ∀ entry ∈ baseMarks,
    entry.1 ≠ 'Σ' ∧ entry.1 ≠ '_' ∧ entry.1 ≠ 'n' :=
  List.all_iff_forall_prop.mp (by decide)

theorem Script.IsInteger.not_mem_suffix (h : IsInteger cs n) : 'n' ∉ cs := by
  cases h with
  | zero => decide
  | decimal hdigits => exact hdigits.not_mem_suffix
  | @based mark base cs ds hmark hdigits =>
    have hne := (baseMarks_spec _ hmark).2.2
    simp [hdigits.not_mem_suffix, hne.symm]

theorem lower_digits (h : List.Forall₂ (IsDigitIn base) cs ds) :
    (ofChars cs).flatMap CodePoint.lower = ds.map CodePoint.ofHexDigit := by
  induction h with
  | nil => rfl
  | @cons c d cs ds hc _ ih =>
    have hlower := (digitTable_spec _ hc.mem).1
    change (CodePoint.ofChar c).lower ++ (ofChars cs).flatMap CodePoint.lower = _
    rw [hlower, ih]
    rfl

theorem not_mem_sigma_digits (h : List.Forall₂ (IsDigitIn base) cs ds) : 'Σ' ∉ cs := by
  induction h with
  | nil => exact List.not_mem_nil
  | cons hc _ ih =>
    exact List.not_mem_cons_of_ne_of_not_mem (digitTable_spec _ hc.mem).2.1.symm ih

theorem ofChars_digits (h : List.Forall₂ (IsDigitIn 10) cs ds) :
    ofChars cs = ds.map CodePoint.ofDigit := by
  induction h with
  | nil => rfl
  | @cons c d cs ds hc _ ih =>
    have hdigit := (digitTable_spec _ hc.mem).2.2.2.2.2 hc.lt
    change CodePoint.ofChar c :: ofChars cs = _
    rw [hdigit, ih]
    rfl

theorem forall_lt_of_forall₂ (h : List.Forall₂ (IsDigitIn base) cs ds) :
    ∀ d ∈ ds, d < base ∧ d < 16 := by
  induction h with
  | nil => exact List.forall_mem_nil _
  | cons hc _ ih =>
    exact List.forall_mem_cons.mpr ⟨⟨hc.lt, (digitTable_spec _ hc.mem).2.2.1⟩, ih⟩

/-- Digits in lower case are read as the number that they denote. -/
theorem natIn?_digits (h : ∀ d ∈ ds, d < base ∧ d < 16) (hne : ds ≠ []) :
    Numeral.natIn? base (ds.map CodePoint.ofHexDigit) = some (readDigits base ds) := by
  have hstrip : strip (ds.map CodePoint.ofHexDigit) = ds.map CodePoint.ofHexDigit := by
    refine strip_of_forall ?_
    rw [List.forall_mem_map]
    exact fun d hd ↦ (ofHexDigit_spec d (h d hd).2).2.2
  have hplain : Binary64.plainDigits? (ds.map CodePoint.ofHexDigit) =
      some (ds.map CodePoint.ofHexDigit) := by
    refine plainDigits?_of_ascii ?_
    rw [List.forall_mem_map]
    exact fun d hd ↦ (ofHexDigit_spec d (h d hd).2).2.1
  have hvalues : (ds.map CodePoint.ofHexDigit).mapM (Numeral.digitIn? base) = some ds := by
    clear hne hstrip hplain
    induction ds with
    | nil => rfl
    | cons d ds ih =>
      obtain ⟨⟨hbase, hlt⟩, hrest⟩ := List.forall_mem_cons.mp h
      have hdigit : Numeral.digitIn? base (CodePoint.ofHexDigit d) = some d := by
        rw [Numeral.digitIn?, (ofHexDigit_spec d hlt).1, Option.bind_some, if_pos hbase]
      rw [List.map_cons, List.mapM_cons, hdigit, ih hrest]
      rfl
  rw [Numeral.natIn?, hstrip, hplain]
  dsimp only
  rw [if_neg (by simpa using hne), hvalues, Option.map_some]

/-! ### Spellings -/

namespace Numeral

/-- What counts of the spelling of a number. -/
def cleaned (spelling : Text) : Text :=
  dropEndWhile (spelling.filter fun c ↦ c.val != 0x5F) fun c ↦ c.val == 0x6E

theorem read?_congr {s t : Text} (h : cleaned s = cleaned t) : read? s = read? t := by
  rw [cleaned, cleaned] at h
  rw [read?, read?, h]

/-- A natural number behind the mark of its base. -/
theorem read?_of_base {spelling : Text} (hbase : base? (lower (cleaned spelling)) = some base)
    (hdigits : natIn? base ((lower (cleaned spelling)).drop 2) = some n) :
    read? spelling = some (.int n) := by
  rw [cleaned] at hbase hdigits
  unfold read?
  dsimp only
  rw [hbase]
  dsimp only
  rw [hdigits]
  rfl

/-- Of the characters of a spelling the underscores go, and the suffix of big integers. -/
theorem cleaned_ofChars (h : 'n' ∉ cs) :
    cleaned (ofChars cs) = ofChars (cs.filter (· != '_')) ∧
      cleaned (ofChars (cs ++ ['n'])) = ofChars (cs.filter (· != '_')) := by
  have hfilter : ∀ cs, (ofChars cs).filter (fun c ↦ c.val != 0x5F) =
      ofChars (cs.filter (· != '_')) := by
    intro cs
    rw [ofChars, List.filter_map]
    refine congrArg _ (List.filter_congr fun c _ ↦ ?_)
    rw [Bool.eq_iff_iff, Function.comp, bne_iff_ne, bne_iff_ne]
    exact not_congr ⟨fun heq ↦ Char.toNat_inj.mp heq, fun heq ↦ heq ▸ rfl⟩
  have hsuffix : ∀ c ∈ ofChars (cs.filter (· != '_')), (c.val == 0x6E) = false := by
    intro c hc
    obtain ⟨d, hd, rfl⟩ := List.mem_map.mp hc
    rw [beq_eq_false_iff_ne]
    intro heq
    obtain rfl : d = 'n' := Char.toNat_inj.mp heq
    exact h (List.mem_of_mem_filter hd)
  refine ⟨?_, ?_⟩
  · rw [cleaned, hfilter, dropEndWhile_of_forall hsuffix]
  · have hdrop : ∀ t : Text, dropEndWhile (t ++ [CodePoint.ofChar 'n']) (·.val == 0x6E) =
        dropEndWhile t (·.val == 0x6E) := by
      intro t
      rw [dropEndWhile, List.reverse_append, List.reverse_singleton, List.singleton_append,
        List.dropWhile_cons_of_pos (by decide), dropEndWhile]
    have hlast : ofChars ((cs ++ ['n']).filter (· != '_')) =
        ofChars (cs.filter (· != '_')) ++ [CodePoint.ofChar 'n'] := by
      rw [List.filter_append, ofChars, List.map_append]
      rfl
    rw [cleaned, hfilter, hlast, hdrop, dropEndWhile_of_forall hsuffix]

/-- Decimal digits without needless zeros. -/
private theorem read?_decimal (h : List.Forall₂ (IsDigitIn 10) cs (d :: ds))
    (hzero : d = 0 → ds = []) (hlength : (d :: ds).length ≤ Number.digitLimit) :
    read? (ofChars cs) = some (.int (readDigits 10 (d :: ds))) := by
  have hlt : ∀ e ∈ d :: ds, e < 10 := fun e he ↦ (forall_lt_of_forall₂ h e he).1
  have hwhole : IsWhole ((d :: ds).map CodePoint.ofDigit) := by
    refine ⟨_, _, rfl, ?_, ?_⟩
    · rw [List.forall_mem_map]
      exact fun e he ↦ CodePoint.isDigit_ofDigit (hlt e he)
    · intro hval
      rw [CodePoint.val_ofDigit (hlt d List.mem_cons_self)] at hval
      rw [hzero (by omega), List.map_nil]
  rw [ofChars_digits h, read?_of_isWhole hwhole (by rwa [List.length_map]),
    digitNumber_map_ofDigit hlt]

/-- Digits whose number is within the limit are within it, if the first one is no zero. -/
private theorem length_le_of_ofDigits (hd : d ≠ 0)
    (hlimit : (ofNat (Nat.ofDigits 10 (d :: ds).reverse)).length ≤ Number.digitLimit) :
    (d :: ds).length ≤ Number.digitLimit := by
  rw [length_ofNat_le_iff (by decide)] at hlimit
  have hpow : 10 ^ (d :: ds).reverse.length ≤ 10 * Nat.ofDigits 10 (d :: ds).reverse :=
    Nat.pow_length_le_mul_ofDigits (b := 8) (by simp) (by simpa using hd)
  have hlt : 10 ^ (d :: ds).reverse.length < 10 ^ (Number.digitLimit + 1) := by
    rw [Nat.pow_succ]
    omega
  have hlength := (Nat.pow_lt_pow_iff_right (by decide)).mp hlt
  rw [List.length_reverse] at hlength
  exact Nat.lt_succ_iff.mp hlength

/-- What is cleaned of a spelling may as well be left out of it. -/
private theorem read?_of_cleaned (h : 'n' ∉ cs) {spelling : Text}
    (hclean : cleaned spelling = ofChars (cs.filter (· != '_'))) :
    read? spelling = read? (ofChars (cs.filter (· != '_'))) := by
  have hfiltered : 'n' ∉ cs.filter (· != '_') := fun hmem ↦ h (List.mem_of_mem_filter hmem)
  have hagain := (cleaned_ofChars hfiltered).1
  rw [List.filter_filter] at hagain
  simp only [Bool.and_self] at hagain
  exact read?_congr (hclean.trans hagain.symm)

/-- The marks of bases, in lower case, name them. -/
private theorem base?_mark {mark : Char} (h : (mark, base) ∈ baseMarks) (t : Text) :
    ∃ c, (CodePoint.ofChar mark).lower = [c] ∧
      base? (CodePoint.ofChar '0' :: c :: t) = some base := by
  simp only [baseMarks, List.mem_cons, Prod.mk.injEq, List.not_mem_nil, or_false] at h
  rcases h with ⟨rfl, rfl⟩ | ⟨rfl, rfl⟩ | ⟨rfl, rfl⟩ | ⟨rfl, rfl⟩ | ⟨rfl, rfl⟩ | ⟨rfl, rfl⟩ <;>
    exact ⟨_, rfl, rfl⟩

/-- Digits behind the mark of a base. -/
private theorem read?_based {mark : Char} (hmark : (mark, base) ∈ baseMarks)
    (h : List.Forall₂ (IsDigitIn base) cs ds) (hne : ds ≠ []) {spelling : Text}
    (hclean : cleaned spelling = ofChars ('0' :: mark :: cs)) :
    read? spelling = some (.int (readDigits base ds)) := by
  obtain ⟨c, hlower, hbase⟩ := base?_mark hmark (ds.map CodePoint.ofHexDigit)
  have hsigma : sigma ∉ cleaned spelling := by
    rw [hclean, ofChars, sigma, List.mem_map_of_injective fun _ _ ↦ CodePoint.ofChar_inj.mp]
    have hne := (baseMarks_spec _ hmark).1
    simp [not_mem_sigma_digits h, hne.symm]
  have hcleaned : lower (cleaned spelling) =
      CodePoint.ofChar '0' :: c :: ds.map CodePoint.ofHexDigit := by
    rw [lower_of_not_mem_sigma hsigma, hclean]
    change (CodePoint.ofChar '0').lower ++
      ((CodePoint.ofChar mark).lower ++ (ofChars cs).flatMap CodePoint.lower) = _
    rw [hlower, lower_digits h]
    rfl
  have hdigits := natIn?_digits (forall_lt_of_forall₂ h) hne
  rw [← hcleaned] at hbase
  refine read?_of_base hbase ?_
  rw [hcleaned]
  exact hdigits

/-- An integer denotes the number that it spells, if the number is within the limit. -/
theorem read?_integer (h : IsInteger cs n) (hlimit : (ofNat n).length ≤ Number.digitLimit)
    {spelling : Text} (hclean : cleaned spelling = ofChars (cs.filter (· != '_'))) :
    read? spelling = some (.int n) := by
  have hcleaned := read?_of_cleaned h.not_mem_suffix hclean
  cases h with
  | zero =>
    have hzero : List.Forall₂ (IsDigitIn 10) ['0'] [0] := .cons ⟨by decide, by decide⟩ .nil
    exact hcleaned.trans (read?_decimal hzero (fun _ ↦ rfl) (by decide))
  | @decimal cs d ds hdigits hd =>
    have hread := read?_decimal hdigits.forall₂ (fun heq ↦ absurd heq hd)
      (length_le_of_ofDigits hd hlimit)
    rw [readDigits_eq_ofDigits] at hread
    exact hcleaned.trans hread
  | @based mark base cs ds hmark hdigits =>
    have hfilter : ('0' :: mark :: cs).filter (· != '_') = '0' :: mark :: cs.filter (· != '_') := by
      simp [(baseMarks_spec _ hmark).2.1]
    rw [hfilter] at hclean
    have hread := read?_based hmark hdigits.forall₂ hdigits.ne_nil hclean
    rwa [readDigits_eq_ofDigits] at hread

/-- A literal denotes the number that it spells, if the number is within the limit. -/
theorem read?_integerLiteral (h : IsIntegerLiteral literal n)
    (hlimit : (ofNat n).length ≤ Number.digitLimit) :
    read? (ofChars literal) = some (.int n) := by
  cases h with
  | plain h => exact read?_integer h hlimit (cleaned_ofChars h.not_mem_suffix).1
  | big h => exact read?_integer h hlimit (cleaned_ofChars h.not_mem_suffix).2

/-- The key that a natural number is within the limit. -/
theorem key_natCast (hlimit : (ofNat n).length ≤ Number.digitLimit) :
    key (.int n) = .ok (ofNat n) := by
  have hfits : Number.fitsLimit n = true := Number.fitsLimit_iff.mpr hlimit
  have htext : ofInt n = ofNat n := by
    rw [ofInt, if_neg (by omega), Int.natAbs_natCast]
  unfold key Number.text? Number.intText?
  dsimp only
  rw [if_pos hfits, htext]

end Numeral

/-! ### Expressions -/

/-- A numeric literal comes to a natural number: by itself, behind a sign, as a key, and where a
story file exports it. -/
structure DenotesNat (literal : List Char) (n : Nat) : Prop where
  read : Numeral.read? (ofChars literal) = some (.int n)
  alone : Expression.ofTree (.number (ofChars literal)) = .ok (.number (.int n))
  plus : ∀ text, Expression.ofTree (.unary "+" (.number (ofChars literal)) text) =
    .ok (.number (.int n))
  minus : ∀ text, Expression.ofTree (.unary "-" (.number (ofChars literal)) text) =
    .ok (.number (.int (-n)))
  key : Expression.keyOf (.number (ofChars literal)) = .ok (some (ofNat n))
  anywhere : ∀ {scope : Scope} {left rest : List Char}, Closes rest →
    LeadsTo left (literal ++ rest) → Reads number scope left rest (ofChars literal)
  exported : ∀ path : Option Path, ∃ line,
    StoryFile.read path (("export const X = " : Text) ++ ofChars literal ++ ";") =
      .ok { path, stories := .ofList [("X",
        { exportName := "X", line, initializer := .number (.int n) })] }

private theorem isDigit_of_isDigitIn {c : Char} (h : IsDigitIn 10 c d) : c.isDigit = true := by
  have hdigits : ∀ entry ∈ digitTable, entry.2 < 10 → entry.1.isDigit = true :=
    List.all_iff_forall_prop.mp (by decide)
  exact hdigits _ h.mem h.lt

/-- A literal begins with a decimal digit. -/
theorem Script.IsIntegerLiteral.exists_eq_cons (h : IsIntegerLiteral literal n) :
    ∃ c more, literal = c :: more ∧ c.isDigit = true := by
  have hinteger : ∀ {cs}, IsInteger cs n → ∃ c more, cs = c :: more ∧ c.isDigit = true := by
    intro cs h
    cases h with
    | zero => exact ⟨'0', [], rfl, rfl⟩
    | based => exact ⟨'0', _, rfl, rfl⟩
    | decimal hdigits =>
      obtain ⟨c, more, rfl, hc⟩ := hdigits.exists_eq_cons
      exact ⟨c, more, rfl, isDigit_of_isDigitIn hc⟩
  cases h with
  | plain h => exact hinteger h
  | big h =>
    obtain ⟨c, more, rfl, hc⟩ := hinteger h
    exact ⟨c, more ++ ['n'], rfl, hc⟩

/-- Every spelling of a natural number as a literal denotes the number, if the number is within the
limit of decimal digits. -/
theorem denotesNat_of_isIntegerLiteral (h : IsIntegerLiteral literal n)
    (hlimit : (ofNat n).length ≤ Number.digitLimit) : DenotesNat literal n := by
  have hread := Numeral.read?_integerLiteral h hlimit
  have htree : Expression.ofTree (.number (ofChars literal)) = .ok (.number (.int n)) := by
    rw [Expression.ofTree, hread]
  refine ⟨hread, htree, fun text ↦ ?_, fun text ↦ ?_, ?_, reads_number_of_isIntegerLiteral h, ?_⟩
  · rw [Expression.ofTree, hread]
    rfl
  · rw [Expression.ofTree, hread]
    rfl
  · rw [Expression.keyOf, hread]
    dsimp only
    rw [Numeral.key_natCast hlimit]
    rfl
  · intro path
    obtain ⟨c, more, hcons, hc⟩ := h.exists_eq_cons
    refine StoryFile.exists_read_exportOf_literal path (by simp [hcons]) ?_ ?_ htree
    · intro scope levels
      have hrest : Closes [';'] := ⟨';', rfl, by decide⟩
      have hleft : LeadsTo (' ' :: (literal ++ [';'])) (literal ++ [';']) := by
        rw [hcons]
        exact (Expressions.leadsTo_digit hc).blank
      have hnumber : Reads number scope _ [';'] (ofChars literal) :=
        reads_number_of_isIntegerLiteral h hrest hleft
      rw [hcons, List.cons_append] at hleft
      rw [hcons] at hnumber ⊢
      exact Expressions.reads_expression hleft
        (Expressions.reads_operand_digit hc hleft hnumber hrest) hrest
    · simp [Tree.preorder, Tree.IsAssignment]

/-- A big integer in base sixteen, with letters in both cases and an underscore. -/
theorem denotesNat_sixteen : IsIntegerLiteral "0XB_e0n".toList 3040 ∧
    (ofNat 3040).length ≤ Number.digitLimit ∧ DenotesNat "0XB_e0n".toList 3040 := by
  have hdigits : IsDigits 16 "B_e0".toList [11, 14, 0] :=
    .separated ⟨by decide, by decide⟩ (.next ⟨by decide, by decide⟩ (.last ⟨by decide, by decide⟩))
  have hmark : ('X', 16) ∈ baseMarks := by decide
  have hliteral : IsIntegerLiteral "0XB_e0n".toList 3040 := .big (.based hmark hdigits)
  have hlimit : (ofNat 3040).length ≤ Number.digitLimit := by decide
  exact ⟨hliteral, hlimit, denotesNat_of_isIntegerLiteral hliteral hlimit⟩

end StoryCatalog
