import Mathlib.Data.Nat.Digits.Defs
import StoryCatalog.Proofs.Script.Literals

/-!
# Integer literals

The spellings of natural numbers as integer literals: decimal digits, or digits behind the mark of
another base, in either letter case, with single underscores between them and the suffix of big
integers behind them. Each spelling is read up to its end (`reads_number_of_isIntegerLiteral`).
-/

namespace StoryCatalog.Script

open Reading

/-- The digits of all bases and their values. -/
def digitTable : List (Char × Nat) :=
  "0123456789".toList.zipIdx ++ "abcdef".toList.zipIdx 10 ++ "ABCDEF".toList.zipIdx 10

/-- The marks of bases behind a leading zero. -/
def baseMarks : List (Char × Nat) := [('x', 16), ('X', 16), ('o', 8), ('O', 8), ('b', 2), ('B', 2)]

/-- A character is a digit of a base. -/
structure IsDigitIn (base : Nat) (c : Char) (d : Nat) : Prop where
  mem : (c, d) ∈ digitTable
  lt : d < base

/-- Digits of a base, the highest one first, with single underscores between some of them. -/
inductive IsDigits (base : Nat) : List Char → List Nat → Prop
  | last {c : Char} {d : Nat} : IsDigitIn base c d → IsDigits base [c] [d]
  | next {c : Char} {d : Nat} {cs : List Char} {ds : List Nat} :
    IsDigitIn base c d → IsDigits base cs ds → IsDigits base (c :: cs) (d :: ds)
  | separated {c : Char} {d : Nat} {cs : List Char} {ds : List Nat} :
    IsDigitIn base c d → IsDigits base cs ds → IsDigits base (c :: '_' :: cs) (d :: ds)

/-- The spellings of a natural number as an integer. -/
inductive IsInteger : List Char → Nat → Prop
  | zero : IsInteger ['0'] 0
  | decimal {cs : List Char} {d : Nat} {ds : List Nat} : IsDigits 10 cs (d :: ds) → d ≠ 0 →
    IsInteger cs (Nat.ofDigits 10 (d :: ds).reverse)
  | based {mark : Char} {base : Nat} {cs : List Char} {ds : List Nat} :
    (mark, base) ∈ baseMarks → IsDigits base cs ds →
      IsInteger ('0' :: mark :: cs) (Nat.ofDigits base ds.reverse)

/-- The spellings of a natural number as a literal: an integer, or a big integer. -/
inductive IsIntegerLiteral : List Char → Nat → Prop
  | plain {cs : List Char} {n : Nat} : IsInteger cs n → IsIntegerLiteral cs n
  | big {cs : List Char} {n : Nat} : IsInteger cs n → IsIntegerLiteral (cs ++ ['n']) n

variable {scope : Scope} {left rest cs : List Char} {base : Nat} {ds : List Nat} {q : Char → Bool}

/-! ### Digits -/

/-- A character of a class in front of others goes on with their run. -/
private theorem endOfRun_cons {c : Char} (hc : q c = true)
    (hleft : c :: cs <:+ scope.source.toList) :
    endOfRun scope.source q (scope.offset (c :: cs)) =
      endOfRun scope.source q (scope.offset cs) := by
  have hsuffix := (List.suffix_cons c cs).trans hleft
  have hoffset : scope.offset cs = scope.offset (c :: cs) + 1 := Scope.offset_cons hleft
  rw [endOfRun_eq, endOfRun_eq, Scope.drop_offset hleft, Scope.drop_offset hsuffix,
    List.takeWhile_cons_of_pos hc, List.length_cons]
  omega

private theorem offset_lt_endOfRun {c : Char} (hc : q c = true)
    (hleft : c :: cs <:+ scope.source.toList) :
    scope.offset (c :: cs) < endOfRun scope.source q (scope.offset (c :: cs)) := by
  rw [endOfRun_eq, Scope.drop_offset hleft, List.takeWhile_cons_of_pos hc, List.length_cons]
  omega

theorem IsDigits.exists_eq_cons {d : Nat} (h : IsDigits base cs (d :: ds)) :
    ∃ c more, cs = c :: more ∧ IsDigitIn base c d := by
  cases h with
  | last hc => exact ⟨_, _, rfl, hc⟩
  | next hc => exact ⟨_, _, rfl, hc⟩
  | separated hc => exact ⟨_, _, rfl, hc⟩

/-- Digits are read up to what goes on with no digit. -/
theorem IsDigits.endOfDigits?_eq (h : IsDigits base cs ds)
    (hdigit : ∀ {c d}, IsDigitIn base c d → q c = true) (hline : q '_' = false)
    (hrest : ∀ c ∈ rest.head?, q c = false ∧ c ≠ '_') (hleft : cs ++ rest <:+ scope.source.toList)
    {fuel : Nat} (hfuel : cs.length ≤ fuel) :
    endOfDigits? scope.source q fuel (scope.offset (cs ++ rest)) = some (scope.offset rest) := by
  induction h generalizing fuel with
  | @last c d hc =>
    obtain ⟨fuel, rfl⟩ := Nat.exists_eq_add_one_of_ne_zero (Nat.ne_zero_of_lt hfuel)
    exact endOfDigits?_offset (by simp) (by simpa using hdigit hc) hrest hleft fuel
  | @next c d cs ds hc hcs ih =>
    obtain ⟨fuel, rfl⟩ := Nat.exists_eq_add_one_of_ne_zero (Nat.ne_zero_of_lt hfuel)
    rw [List.cons_append] at hleft ⊢
    have hbehind := ih ((List.suffix_cons c _).trans hleft) (Nat.le_of_lt hfuel)
    -- The run that begins at the digit is the one that begins behind it.
    rw [endOfDigits?] at hbehind ⊢
    have hmoved := Nat.ne_of_gt (offset_lt_endOfRun (hdigit hc) hleft)
    rw [endOfRun_cons (hdigit hc) hleft] at hmoved ⊢
    rw [if_neg hmoved]
    split at hbehind
    · cases hbehind
    · exact hbehind
  | @separated c d cs ds hc _ ih =>
    obtain ⟨fuel, rfl⟩ := Nat.exists_eq_add_one_of_ne_zero (Nat.ne_zero_of_lt hfuel)
    rw [List.cons_append, List.cons_append] at hleft ⊢
    have hunderscore : '_' :: (cs ++ rest) <:+ scope.source.toList :=
      (List.suffix_cons c _).trans hleft
    have hbehind := ih ((List.suffix_cons '_' _).trans hunderscore)
      (show cs.length ≤ fuel by simp only [List.length_cons] at hfuel; omega)
    have hstop : endOfRun scope.source q (scope.offset (c :: '_' :: (cs ++ rest))) =
        scope.offset ('_' :: (cs ++ rest)) := by
      have hrun : ∀ d ∈ [c], q d = true := by simpa using hdigit hc
      refine endOfRun_offset hleft hrun ?_
      rintro d ⟨⟩
      exact hline
    have hmoved := Nat.ne_of_gt (offset_lt_endOfRun (hdigit hc) hleft)
    rw [endOfDigits?]
    rw [hstop] at hmoved ⊢
    rw [if_neg hmoved, Scope.head?_offset hunderscore, List.head?_cons, if_pos rfl,
      ← Scope.offset_cons hunderscore, hbehind, Option.getD_some]

/-! ### Bases -/

/-- What stands behind an integer. -/
def behindInteger : List Char := 'n' :: closers

/-- A class of characters holds the digits of a base and nothing that may stand behind them. -/
private structure IsClassOf (base : Nat) (q : Char → Bool) : Prop where
  digit : ∀ {c d}, IsDigitIn base c d → q c = true
  underscore : q '_' = false
  behind : ∀ c ∈ behindInteger, q c = false

private theorem isClassOf_of_all (hdigit : (digitTable.all fun entry ↦
      decide (entry.2 < base → q entry.1 = true)) = true) (hline : q '_' = false)
    (hbehind : (behindInteger.all fun c ↦ !q c) = true) : IsClassOf base q := by
  refine ⟨fun hc ↦ ?_, hline, fun c hc ↦ ?_⟩
  · exact of_decide_eq_true (List.all_eq_true.mp hdigit _ hc.mem) hc.lt
  · simpa using List.all_eq_true.mp hbehind c hc

private theorem isClassOf_sixteen : IsClassOf 16 isHexDigit :=
  isClassOf_of_all (by decide) (by decide) (by decide)

private theorem isClassOf_ten : IsClassOf 10 Char.isDigit :=
  isClassOf_of_all (by decide) (by decide) (by decide)

private theorem isClassOf_eight : IsClassOf 8 fun c ↦ '0' ≤ c && c ≤ '7' :=
  isClassOf_of_all (by decide) (by decide) (by decide)

private theorem isClassOf_two : IsClassOf 2 fun c ↦ c = '0' || c = '1' :=
  isClassOf_of_all (by decide) (by decide) (by decide)

/-- Digits are read up to what stands behind an integer. -/
private theorem IsClassOf.endOfDigits?_eq (hq : IsClassOf base q) (h : IsDigits base cs ds)
    (hrest : ∃ c ∈ rest.head?, c ∈ behindInteger) (hleft : cs ++ rest <:+ scope.source.toList) :
    endOfDigits? scope.source q (scope.source.size + 1) (scope.offset (cs ++ rest)) =
      some (scope.offset rest) := by
  have hlength := Scope.length_le hleft
  rw [List.length_append] at hlength
  refine h.endOfDigits?_eq hq.digit hq.underscore ?_ hleft (by omega)
  obtain ⟨c, hhead, hc⟩ := hrest
  intro d hd
  obtain rfl : c = d := Option.mem_unique hhead hd
  refine ⟨hq.behind c hc, ?_⟩
  rintro rfl
  exact absurd hc (by decide)

/-- Digits behind the mark of a base. -/
private theorem endOfBased?_eq {mark : Char} {marks : List Char} (hmark : mark ∈ marks)
    (hq : IsClassOf base q) (h : IsDigits base cs ds)
    (hrest : ∃ c ∈ rest.head?, c ∈ behindInteger)
    (hleft : '0' :: mark :: (cs ++ rest) <:+ scope.source.toList) :
    endOfBased? scope.source (scope.offset ('0' :: mark :: (cs ++ rest))) marks q =
      some (scope.offset rest) := by
  have hdigits : cs ++ rest <:+ scope.source.toList :=
    (List.suffix_append ['0', mark] _).trans hleft
  have hstart : scope.offset (cs ++ rest) = scope.offset ('0' :: mark :: (cs ++ rest)) + 2 :=
    Scope.offset_append (show ['0', mark] ++ (cs ++ rest) <:+ scope.source.toList from hleft)
  have hsecond : scope.source[scope.offset ('0' :: mark :: (cs ++ rest)) + 1]? = some mark :=
    Scope.getElem?_offset hleft 1
  rw [endOfBased?, hsecond]
  dsimp only
  rw [Scope.head?_offset hleft, List.contains_iff_mem.mpr hmark, ← hstart,
    hq.endOfDigits?_eq h hrest hdigits]
  rfl

/-- The mark of another base begins no digits. -/
private theorem endOfBased?_ne {mark : Char} {marks : List Char} (hmark : mark ∉ marks)
    (hleft : '0' :: mark :: cs <:+ scope.source.toList) :
    endOfBased? scope.source (scope.offset ('0' :: mark :: cs)) marks q = none := by
  refine endOfBased?_eq_none fun _ ↦ ⟨mark, Scope.getElem?_offset hleft 1, ?_⟩
  rwa [List.contains_eq_mem, decide_eq_false_iff_not]

/-- The digits behind the mark of a base are read in this base. -/
private theorem endOfNumber?_based {mark : Char} (hmark : (mark, base) ∈ baseMarks)
    (h : IsDigits base cs ds) (hrest : ∃ c ∈ rest.head?, c ∈ behindInteger)
    (hleft : '0' :: mark :: (cs ++ rest) <:+ scope.source.toList) :
    endOfNumber? scope.source (scope.offset ('0' :: mark :: (cs ++ rest))) =
      some (if rest.head? = some 'n' then scope.offset rest + 1 else scope.offset rest) := by
  have hsuffix : rest <:+ scope.source.toList :=
    (List.suffix_append ('0' :: mark :: cs) rest).trans hleft
  have hmarks : ∀ entry ∈ baseMarks, entry.1 ∈ ['x', 'X'] ∧ entry.2 = 16 ∨
      entry.1 ∉ ['x', 'X'] ∧ (entry.1 ∈ ['o', 'O'] ∧ entry.2 = 8 ∨
        entry.1 ∉ ['o', 'O'] ∧ entry.1 ∈ ['b', 'B'] ∧ entry.2 = 2) :=
    List.all_iff_forall_prop.mp (by decide)
  unfold endOfNumber?
  dsimp only
  rw [← Scope.head?_offset hsuffix]
  rcases hmarks _ hmark with ⟨hx, rfl⟩ | ⟨hx, ⟨ho, rfl⟩ | ⟨ho, hb, rfl⟩⟩
  · rw [endOfBased?_eq hx isClassOf_sixteen h hrest hleft]
    rfl
  · rw [endOfBased?_ne hx hleft, endOfBased?_eq ho isClassOf_eight h hrest hleft]
    rfl
  · rw [endOfBased?_ne hx hleft, endOfBased?_ne ho hleft,
      endOfBased?_eq hb isClassOf_two h hrest hleft]
    rfl

/-! ### Decimal integers -/

private theorem behindInteger_spec : ∀ c ∈ behindInteger,
    c ≠ '.' ∧ c ≠ 'e' ∧ c ≠ 'E' ∧ c ∉ baseMarks.map Prod.fst :=
  List.all_iff_forall_prop.mp (by decide)

theorem IsDigits.chars_ne_nil (h : IsDigits base cs ds) : cs ≠ [] := by
  cases h <;> exact List.cons_ne_nil _ _

/-- A zero that stands by itself ends right behind its character. -/
private theorem offset_behind_zero (h : IsDigits 10 cs ds)
    (hzero : cs.head? = some '0' → cs = ['0']) (hleft : cs ++ rest <:+ scope.source.toList)
    (hsome : scope.source[scope.offset (cs ++ rest)]? = some '0') :
    scope.offset rest = scope.offset (cs ++ rest) + 1 := by
  rw [Scope.head?_offset hleft, List.head?_append_of_ne_nil cs h.chars_ne_nil] at hsome
  obtain rfl := hzero hsome
  exact Scope.offset_cons hleft

/-- No power begins behind an integer. -/
private theorem endOfPower_behindInteger (hrest : ∃ c ∈ rest.head?, c ∈ behindInteger)
    (hleft : rest <:+ scope.source.toList) :
    endOfPower scope.source (scope.offset rest) = scope.offset rest := by
  obtain ⟨c, hhead, hc⟩ := hrest
  obtain ⟨-, hlower, hupper, -⟩ := behindInteger_spec c hc
  rw [endOfPower, Scope.head?_offset hleft, Option.mem_def.mp hhead]
  dsimp only
  rw [if_neg (by simp [hlower, hupper])]

/-- Decimal digits are read as those of an integer, if a zero in front stands by itself. -/
private theorem endOfNumber?_decimal (h : IsDigits 10 cs ds)
    (hzero : cs.head? = some '0' → cs = ['0']) (hrest : ∃ c ∈ rest.head?, c ∈ behindInteger)
    (hleft : cs ++ rest <:+ scope.source.toList) :
    endOfNumber? scope.source (scope.offset (cs ++ rest)) =
      some (if rest.head? = some 'n' then scope.offset rest + 1 else scope.offset rest) := by
  have hsuffix : rest <:+ scope.source.toList := (List.suffix_append cs rest).trans hleft
  have hbehind := offset_behind_zero h hzero hleft
  have hstop := isClassOf_ten.endOfDigits?_eq h hrest hleft
  have hpower := endOfPower_behindInteger hrest hsuffix
  obtain ⟨c, hhead, hc⟩ := hrest
  obtain ⟨hpoint, -, -, hmark⟩ := behindInteger_spec c hc
  have hnone : ∀ {marks : List Char} {q : Char → Bool}, marks ⊆ baseMarks.map Prod.fst →
      endOfBased? scope.source (scope.offset (cs ++ rest)) marks q = none := by
    intro marks q hmarks
    refine endOfBased?_eq_none fun hsome ↦ ⟨c, ?_, ?_⟩
    · rw [← hbehind hsome, Scope.head?_offset hsuffix]
      exact hhead
    · rw [List.contains_eq_mem, decide_eq_false_iff_not]
      exact fun hmem ↦ hmark (hmarks hmem)
  have hinteger : isDecimalInteger scope.source (scope.offset (cs ++ rest)) (scope.offset rest) =
      true := by
    unfold isDecimalInteger
    split
    · next hsome => simp [hbehind hsome]
    · rfl
  unfold endOfNumber?
  dsimp only
  rw [hnone (by decide), hnone (by decide), hnone (by decide), hstop]
  dsimp only [Option.orElse_eq_orElse, Option.orElse]
  rw [if_pos hinteger, hpower, Scope.head?_offset hsuffix, if_neg, if_pos rfl]
  rw [Option.mem_def.mp hhead]
  simpa using hpoint

/-! ### Literals -/

private theorem digit_zero : ∀ entry ∈ digitTable, entry.1 = '0' → entry.2 = 0 :=
  List.all_iff_forall_prop.mp (by decide)

/-- An integer is read up to what stands behind it. -/
theorem IsInteger.endOfNumber?_eq {n : Nat} (h : IsInteger cs n)
    (hrest : ∃ c ∈ rest.head?, c ∈ behindInteger) (hleft : cs ++ rest <:+ scope.source.toList) :
    endOfNumber? scope.source (scope.offset (cs ++ rest)) =
      some (if rest.head? = some 'n' then scope.offset rest + 1 else scope.offset rest) := by
  cases h with
  | zero =>
    have hzero : IsDigits 10 ['0'] [0] := .last ⟨by decide, by decide⟩
    exact endOfNumber?_decimal hzero (fun _ ↦ rfl) hrest hleft
  | @decimal cs d ds hdigits hd =>
    refine endOfNumber?_decimal hdigits (fun hhead ↦ absurd ?_ hd) hrest hleft
    obtain ⟨c, more, rfl, hc⟩ := hdigits.exists_eq_cons
    exact digit_zero _ hc.mem (Option.some.inj hhead)
  | based hmark hdigits => exact endOfNumber?_based hmark hdigits hrest hleft

/-- A literal of a natural number is read as its characters. -/
theorem reads_number_of_isIntegerLiteral {literal : List Char} {n : Nat}
    (h : IsIntegerLiteral literal n) (hrest : Closes rest)
    (hleft : LeadsTo left (literal ++ rest)) :
    Reads number scope left rest (Text.ofChars literal) := by
  refine (reads_space hleft).bind (reads_upTo fun hsource ↦ ?_)
  obtain ⟨c, hhead, hc⟩ := hrest
  cases h with
  | plain h =>
    have hsuffix : ¬ rest.head? = some 'n' := by
      rw [Option.mem_def.mp hhead]
      rintro ⟨⟩
      exact absurd hc (by decide)
    rw [h.endOfNumber?_eq ⟨c, hhead, List.mem_cons_of_mem _ hc⟩ hsource, if_neg hsuffix]
  | @big cs n h =>
    rw [List.append_assoc] at hsource ⊢
    have hbehind : 'n' :: rest <:+ scope.source.toList := (List.suffix_append cs _).trans hsource
    rw [List.singleton_append] at hsource ⊢
    rw [h.endOfNumber?_eq ⟨'n', rfl, List.mem_cons_self⟩ hsource, List.head?_cons, if_pos rfl,
      ← Scope.offset_cons hbehind]

end StoryCatalog.Script
