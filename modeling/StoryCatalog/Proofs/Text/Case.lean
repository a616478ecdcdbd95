import Mathlib.Data.List.Infix
import Mathlib.Data.List.TakeWhile
import StoryCatalog.Text.Blank
import StoryCatalog.Text.Case

/-!
# Lower case and occurrences

A text that stands in another one need not do so in lower case: a capital sigma is written by what
is around it. It is written alike wherever the text stands exactly if no sigma of the text is
exposed (`lower_infix_iff`). White space around a text changes nothing (`lower_strip_infix`).
-/

namespace StoryCatalog.Text

variable {s t u before after : Text}

/-- One text is found in another exactly if it stands there in one piece. -/
theorem holds_iff : holds t s = true ↔ s <:+: t := by
  induction t with
  | nil => simp [holds]
  | cons c rest ih =>
    rw [holds, Bool.or_eq_true, List.isPrefixOf_iff_prefix, ih, List.infix_cons_iff]

/-! ### Lower case between other texts -/

/-- The capital sigma. -/
def sigma : CodePoint := CodePoint.ofChar 'Σ'

/-- Whether a capital sigma is final behind the code points of `before`, the nearest one first. -/
def isFinal (before rest : Text) : Bool := nextIsCased before && !nextIsCased rest

/-- The lower-case form of a code point between others. -/
def lowerAt (before : Text) (c : CodePoint) (rest : Text) : Text :=
  if c = sigma then
    if isFinal before rest then [CodePoint.ofChar 'ς'] else [CodePoint.ofChar 'σ']
  else c.lower

/-- The lower-case form of a text between others. -/
def lowerBetween (before : Text) : Text → Text → Text
  | [], _ => []
  | c :: rest, after =>
    lowerAt before c (rest ++ after) ++ lowerBetween (c :: before) rest after

theorem lowerAfter_cons (before : Text) (c : CodePoint) (rest : Text) :
    lowerAfter before (c :: rest) = lowerAt before c rest ++ lowerAfter (c :: before) rest := rfl

theorem lowerAfter_append (before t after : Text) :
    lowerAfter before (t ++ after) =
      lowerBetween before t after ++ lowerAfter (t.reverse ++ before) after := by
  induction t generalizing before with
  | nil => rfl
  | cons c rest ih =>
    rw [List.cons_append, lowerAfter_cons, ih, lowerBetween, List.append_assoc, List.reverse_cons,
      List.append_assoc, List.singleton_append]

theorem lowerBetween_nil_right (before t : Text) :
    lowerBetween before t [] = lowerAfter before t := by
  have happend := lowerAfter_append before t []
  rw [List.append_nil, lowerAfter, List.append_nil] at happend
  exact happend.symm

theorem lowerBetween_append (before s t after : Text) :
    lowerBetween before (s ++ t) after =
      lowerBetween before s (t ++ after) ++ lowerBetween (s.reverse ++ before) t after := by
  induction s generalizing before with
  | nil => rfl
  | cons c rest ih =>
    rw [List.cons_append, lowerBetween, ih, lowerBetween, List.reverse_cons, List.append_assoc,
      List.append_assoc, List.append_assoc, List.singleton_append]

/-- In lower case, too, a text is made of what is before a part of it, of the part, and of what is
behind it. -/
theorem lower_append (before t after : Text) :
    lower (before ++ t ++ after) =
      lowerBetween [] before (t ++ after) ++ lowerBetween before.reverse t after ++
        lowerAfter (t.reverse ++ before.reverse) after := by
  rw [lower, List.append_assoc, lowerAfter_append, lowerAfter_append, List.append_nil,
    List.append_assoc]

/-- The length of a lower-case form does not depend on what is around it. -/
theorem length_lowerBetween (before t after : Text) :
    (lowerBetween before t after).length = (lower t).length := by
  have hat : ∀ before rest before' rest' c,
      (lowerAt before c rest).length = (lowerAt before' c rest').length := by
    intro before rest before' rest' c
    unfold lowerAt
    split
    · split <;> split <;> rfl
    · rfl
  have hany : ∀ before',
      (lowerBetween before t after).length = (lowerBetween before' t []).length := by
    induction t generalizing before with
    | nil => exact fun _ ↦ rfl
    | cons c rest ih =>
      intro before'
      rw [lowerBetween, lowerBetween, List.length_append, List.length_append, ih,
        hat before (rest ++ after) before' (rest ++ [])]
  rw [hany [], lowerBetween_nil_right, lower]

theorem lower_ne_nil (h : t ≠ []) : lower t ≠ [] := by
  cases t with
  | nil => exact absurd rfl h
  | cons c rest =>
    have hlower : lower (c :: rest) = lowerAt [] c rest ++ lowerAfter [c] rest := rfl
    rw [hlower]
    refine List.append_ne_nil_of_left_ne_nil ?_ _
    unfold lowerAt CodePoint.lower
    split
    · split <;> exact List.cons_ne_nil _ _
    · split
      · exact List.cons_ne_nil _ _
      split
      · exact List.cons_ne_nil _ _
      split <;> exact List.cons_ne_nil _ _

/-- Texts are written alike between different ones if their sigmas are. -/
theorem lowerBetween_congr {before' after' : Text}
    (h : ∀ front rest, t = front ++ sigma :: rest →
      isFinal (front.reverse ++ before) (rest ++ after) =
        isFinal (front.reverse ++ before') (rest ++ after')) :
    lowerBetween before t after = lowerBetween before' t after' := by
  induction t generalizing before before' with
  | nil => rfl
  | cons c rest ih =>
    have hhead : lowerAt before c (rest ++ after) = lowerAt before' c (rest ++ after') := by
      unfold lowerAt
      split
      · next hsigma =>
        have hfinal := h [] rest (by rw [hsigma]; rfl)
        rw [List.reverse_nil, List.nil_append, List.nil_append] at hfinal
        rw [hfinal]
      · rfl
    have hrest : lowerBetween (c :: before) rest after =
        lowerBetween (c :: before') rest after' := by
      refine ih fun front rest' hsplit ↦ ?_
      have hfinal := h (c :: front) rest' (by rw [hsplit]; rfl)
      rwa [List.reverse_cons, List.append_assoc, List.append_assoc] at hfinal
    rw [lowerBetween, lowerBetween, hhead, hrest]

/-! ### Code points that lower case leaves as they are -/

/-- Lower case leaves the code point as it is, wherever it stands. -/
structure IsSettled (c : CodePoint) : Prop where
  ne_sigma : c ≠ sigma
  lower_eq : c.lower = [c]

/-- Of the ASCII code points, only the capitals are changed. -/
theorem isSettled_of_ascii {c : CodePoint} (h : c.val < 0x80)
    (hcapital : ¬ (0x41 ≤ c.val ∧ c.val ≤ 0x5A)) : IsSettled c := by
  refine ⟨?_, ?_⟩
  · rintro rfl
    exact absurd h (by decide)
  · rw [CodePoint.lower, dif_neg hcapital, if_pos h]

theorem IsSettled.lowerAt_eq {c : CodePoint} (h : IsSettled c) (before rest : Text) :
    lowerAt before c rest = [c] := by
  rw [lowerAt, if_neg h.ne_sigma, h.lower_eq]

theorem lowerBetween_of_isSettled (h : ∀ c ∈ t, IsSettled c) (before after : Text) :
    lowerBetween before t after = t := by
  induction t generalizing before with
  | nil => rfl
  | cons c rest ih =>
    obtain ⟨hc, hrest⟩ := List.forall_mem_cons.mp h
    rw [lowerBetween, hc.lowerAt_eq, ih hrest, List.singleton_append]

theorem lower_of_isSettled (h : ∀ c ∈ t, IsSettled c) : lower t = t := by
  rw [lower, ← lowerBetween_nil_right, lowerBetween_of_isSettled h]

/-- Without a capital sigma, lower case is that of each code point by itself. -/
theorem lower_of_not_mem_sigma (h : sigma ∉ t) : lower t = t.flatMap CodePoint.lower := by
  have hafter : ∀ before, lowerAfter before t = t.flatMap CodePoint.lower := by
    induction t with
    | nil => exact fun _ ↦ rfl
    | cons c rest ih =>
      rw [List.mem_cons, not_or] at h
      obtain ⟨hc, hrest⟩ := h
      intro before
      rw [lowerAfter_cons, lowerAt, if_neg (Ne.symm hc), ih hrest, List.flatMap_cons]
  exact hafter []

/-! ### Exposed sigmas -/

/-- The nearest code point that counts is in the first text, unless case rules look past all of
it. -/
theorem nextIsCased_append (s t : Text) :
    nextIsCased (s ++ t) =
      if s.all CodePoint.isCaseIgnorable then nextIsCased t else nextIsCased s := by
  induction s with
  | nil => rfl
  | cons c rest ih =>
    cases hc : c.isCaseIgnorable with
    | true =>
      have hskip : ∀ more, nextIsCased (c :: more) = nextIsCased more := by
        intro more
        rw [nextIsCased, List.dropWhile_cons_of_pos hc, nextIsCased]
      rw [List.cons_append, hskip, hskip, ih, List.all_cons, hc, Bool.true_and]
    | false =>
      have hstop : ∀ more, nextIsCased (c :: more) = c.isCased := by
        intro more
        rw [nextIsCased, List.dropWhile_cons_of_neg (by rw [hc]; decide)]
      rw [List.cons_append, hstop, hstop, List.all_cons, hc]
      rfl

theorem nextIsCased_of_all (h : t.all CodePoint.isCaseIgnorable = true) :
    nextIsCased t = false := by
  have happend := nextIsCased_append t []
  rw [List.append_nil, if_pos h] at happend
  exact happend

/-- A capital sigma of a text is exposed if a letter around the text would change its form: nothing
in front of it tells whether a letter comes before it, and none follows it, or a letter comes before
it and nothing behind it tells whether one follows. -/
def ExposesSigma (t : Text) : Prop :=
  ∃ front rest, t = front ++ sigma :: rest ∧
    (front.all CodePoint.isCaseIgnorable = true ∧ nextIsCased rest = false ∨
      nextIsCased front.reverse = true ∧ rest.all CodePoint.isCaseIgnorable = true)

theorem exposesSigma_iff : ExposesSigma t ↔ ∃ i < t.length, t[i]? = some sigma ∧
    ((t.take i).all CodePoint.isCaseIgnorable = true ∧ nextIsCased (t.drop (i + 1)) = false ∨
      nextIsCased (t.take i).reverse = true ∧
        (t.drop (i + 1)).all CodePoint.isCaseIgnorable = true) := by
  constructor
  · rintro ⟨front, rest, rfl, hexposed⟩
    exact ⟨front.length, by simp, by simp, by simpa using hexposed⟩
  · rintro ⟨i, hi, hsigma, hexposed⟩
    refine ⟨t.take i, t.drop (i + 1), ?_, hexposed⟩
    rw [← (List.getElem?_eq_some_iff.mp hsigma).2, List.cons_getElem_drop_succ,
      List.take_append_drop]

instance : DecidablePred ExposesSigma := fun _ ↦ decidable_of_iff' _ exposesSigma_iff

/-- A text without exposed sigmas is written alike wherever it stands. -/
theorem lowerBetween_of_not_exposesSigma (h : ¬ ExposesSigma t) (before after : Text) :
    lowerBetween before t after = lower t := by
  rw [lower, ← lowerBetween_nil_right]
  refine lowerBetween_congr fun front rest hsplit ↦ ?_
  have hnot : ¬ (front.all CodePoint.isCaseIgnorable = true ∧ nextIsCased rest = false ∨
      nextIsCased front.reverse = true ∧ rest.all CodePoint.isCaseIgnorable = true) :=
    fun hexposed ↦ h ⟨front, rest, hsplit, hexposed⟩
  have hall : front.reverse.all CodePoint.isCaseIgnorable = front.all CodePoint.isCaseIgnorable :=
    List.all_reverse
  have hfront := @nextIsCased_of_all front.reverse
  have hrest := @nextIsCased_of_all rest
  rw [List.append_nil, List.append_nil, isFinal, isFinal, nextIsCased_append, nextIsCased_append,
    hall]
  rw [hall] at hfront
  grind

/-- The lower-case form of a part stands in that of the whole if it is written there as it is
alone. -/
theorem lower_infix_of_eq (h : lowerBetween before.reverse t after = lower t) :
    lower t <:+: lower (before ++ t ++ after) := by
  rw [lower_append, h]
  exact List.infix_append _ _ _

/-- A sigma that is final between some texts and not between others tells the lower-case forms
apart. -/
private theorem lowerBetween_ne {front rest before' after' : Text}
    (h : isFinal (front.reverse ++ before) (rest ++ after) ≠
      isFinal (front.reverse ++ before') (rest ++ after')) :
    lowerBetween before (front ++ sigma :: rest) after ≠
      lowerBetween before' (front ++ sigma :: rest) after' := by
  intro heq
  rw [lowerBetween_append, lowerBetween_append] at heq
  have hlength : (lowerBetween before front (sigma :: rest ++ after)).length =
      (lowerBetween before' front (sigma :: rest ++ after')).length := by
    rw [length_lowerBetween, length_lowerBetween]
  have hat : ∀ before rest, lowerAt before sigma rest =
      [if isFinal before rest then CodePoint.ofChar 'ς' else CodePoint.ofChar 'σ'] := by
    intro before rest
    rw [lowerAt, if_pos rfl]
    split <;> rfl
  have hbehind := List.append_inj_right heq hlength
  rw [lowerBetween, lowerBetween, hat, hat, List.singleton_append, List.singleton_append] at hbehind
  have hform := (List.cons.inj hbehind).1
  have hdiffer : CodePoint.ofChar 'ς' ≠ CodePoint.ofChar 'σ' := by decide
  grind

/-- A letter that is written as it is. -/
private structure IsPlainLetter (c : CodePoint) : Prop where
  nextIsCased : nextIsCased [c] = true
  lowerAt : ∀ before rest, lowerAt before c rest = [c]

private theorem exists_plainLetter_ne (c : CodePoint) : ∃ letter ≠ c, IsPlainLetter letter := by
  by_cases hc : c = CodePoint.ofChar 'a'
  · exact ⟨CodePoint.ofChar 'b', by rw [hc]; decide, by decide +kernel, fun _ _ ↦ rfl⟩
  · exact ⟨CodePoint.ofChar 'a', Ne.symm hc, by decide +kernel, fun _ _ ↦ rfl⟩

/-- A text with an exposed sigma is written otherwise beside some letter, and not found there. -/
theorem exists_not_infix (h : ExposesSigma t) :
    ∃ whole, t <:+: whole ∧ ¬ lower t <:+: lower whole := by
  obtain ⟨front, rest, hsplit, hexposed⟩ := h
  have hne : lower t ≠ [] := lower_ne_nil (by rw [hsplit]; simp)
  have halone : lower t = lowerBetween [] t [] := (lowerBetween_nil_right [] t).symm
  rcases hexposed with ⟨hfront, hrest⟩ | ⟨hfront, hrest⟩
  · -- A letter in front makes the sigma a final one, which it is not alone.
    obtain ⟨letter, hletter, hplain⟩ := exists_plainLetter_ne ((lower t).head hne)
    have hall : front.reverse.all CodePoint.isCaseIgnorable = true := by rwa [List.all_reverse]
    have hdiffers : lowerBetween [letter] t [] ≠ lower t := by
      rw [halone, hsplit]
      apply lowerBetween_ne
      simp [isFinal, nextIsCased_append, hall, hplain.nextIsCased, hrest, nextIsCased_of_all hall]
    have hwhole : lower ([letter] ++ t) = letter :: lowerBetween [letter] t [] := by
      have happend := lower_append [letter] t []
      rw [List.append_nil, lowerBetween, hplain.lowerAt, lowerBetween, lowerAfter] at happend
      simpa using happend
    refine ⟨[letter] ++ t, List.infix_append_of_infix_right (List.infix_refl t), ?_⟩
    rw [hwhole, List.infix_cons_iff]
    rintro (hstart | hinside)
    · obtain ⟨d, more, hcons⟩ := List.exists_cons_of_ne_nil hne
      simp only [hcons, List.head_cons, List.cons_prefix_cons] at hletter hstart
      exact hletter hstart.1.symm
    · exact hdiffers (hinside.eq_of_length (length_lowerBetween ..).symm).symm
  · -- A letter behind makes the sigma one inside a word, while it is final alone.
    obtain ⟨letter, hletter, hplain⟩ := exists_plainLetter_ne ((lower t).getLast hne)
    have hdiffers : lowerBetween [] t [letter] ≠ lower t := by
      rw [halone, hsplit]
      apply lowerBetween_ne
      simp [isFinal, nextIsCased_append, hfront, hplain.nextIsCased, hrest,
        nextIsCased_of_all hrest]
    have hwhole : lower (t ++ [letter]) = lowerBetween [] t [letter] ++ [letter] := by
      have happend := lower_append [] t [letter]
      rw [lowerBetween, List.nil_append, List.nil_append] at happend
      have hlast : lowerAfter (t.reverse ++ List.reverse []) [letter] = [letter] :=
        (List.append_nil _).trans (hplain.lowerAt _ [])
      rw [happend, hlast]
      rfl
    refine ⟨t ++ [letter], List.infix_append_of_infix_left (List.infix_refl t), ?_⟩
    rw [hwhole, List.infix_concat_iff]
    rintro (⟨more, hend⟩ | hinside)
    · rw [← List.dropLast_append_getLast hne, ← List.append_assoc] at hend
      exact hletter (List.cons.inj (List.append_inj_right' hend rfl)).1.symm
    · exact hdiffers (hinside.eq_of_length (length_lowerBetween ..).symm).symm

/-- A text is found in lower case wherever it stands exactly if it exposes no sigma. -/
theorem lower_infix_iff :
    (∀ whole, t <:+: whole → lower t <:+: lower whole) ↔ ¬ ExposesSigma t := by
  constructor
  · intro h hexposed
    obtain ⟨whole, hwithin, hnot⟩ := exists_not_infix hexposed
    exact hnot (h whole hwithin)
  · rintro h whole ⟨before, after, rfl⟩
    exact lower_infix_of_eq (lowerBetween_of_not_exposesSigma h _ _)

/-! ### White space -/

/-- White space is nothing that case rules look at. -/
theorem not_isCased_of_isBlank {c : CodePoint} (h : c.isBlank = true) :
    c.isCased = false ∧ c.isCaseIgnorable = false := by
  have hvalues : ∀ n ∈ List.range' 0x09 5 ++ List.range' 0x1C 5 ++ [0x85, 0xA0, 0x1680] ++
      List.range' 0x2000 11 ++ [0x2028, 0x2029, 0x202F, 0x205F, 0x3000], ∀ hn : n < 0x110000,
      CodePoint.isCased ⟨n, hn⟩ = false ∧ CodePoint.isCaseIgnorable ⟨n, hn⟩ = false := by
    decide +kernel
  refine hvalues c.val ?_ c.isLt
  simp only [CodePoint.isBlank, Bool.or_eq_true, Bool.and_eq_true, decide_eq_true_eq,
    beq_iff_eq] at h
  simp only [List.mem_append, List.mem_range'_1, List.mem_cons, List.not_mem_nil, or_false]
  omega

/-- White space behind a text is like the end of it. -/
theorem nextIsCased_append_blank {blank : Text} (h : ∀ c ∈ blank, c.isBlank = true) (t : Text) :
    nextIsCased (t ++ blank) = nextIsCased t := by
  have hblank : nextIsCased blank = false := by
    cases blank with
    | nil => rfl
    | cons c rest =>
      obtain ⟨hcased, hignorable⟩ := not_isCased_of_isBlank (h c List.mem_cons_self)
      rw [nextIsCased, List.dropWhile_cons_of_neg (by rw [hignorable]; decide)]
      exact hcased
  rw [nextIsCased_append, hblank]
  split
  · next hall => exact (nextIsCased_of_all hall).symm
  · rfl

/-- A text is what is left of it without the white space at its ends, and that white space. -/
theorem exists_strip (t : Text) : ∃ before after, t = before ++ strip t ++ after ∧
    (∀ c ∈ before, c.isBlank = true) ∧ ∀ c ∈ after, c.isBlank = true := by
  let front := t.dropWhile CodePoint.isBlank
  refine ⟨t.takeWhile CodePoint.isBlank, (front.reverse.takeWhile CodePoint.isBlank).reverse, ?_,
    fun c hc ↦ List.mem_takeWhile_imp hc,
    fun c hc ↦ List.mem_takeWhile_imp (List.mem_reverse.mp hc)⟩
  have hfront : strip t ++ (front.reverse.takeWhile CodePoint.isBlank).reverse = front := by
    rw [strip, dropEndWhile, ← List.reverse_append, List.takeWhile_append_dropWhile,
      List.reverse_reverse]
  rw [List.append_assoc, hfront, List.takeWhile_append_dropWhile]

/-- The lower-case form of a text without the white space at its ends stands in that of the text. -/
theorem lower_strip_infix (t : Text) : lower (strip t) <:+: lower t := by
  obtain ⟨before, after, hsplit, hbefore, hafter⟩ := exists_strip t
  have hbefore' : ∀ c ∈ before.reverse, c.isBlank = true :=
    fun c hc ↦ hbefore c (List.mem_reverse.mp hc)
  have halone : lowerBetween before.reverse (strip t) after = lower (strip t) := by
    rw [lower, ← lowerBetween_nil_right]
    refine lowerBetween_congr fun front rest _ ↦ ?_
    rw [isFinal, isFinal, nextIsCased_append_blank hbefore', nextIsCased_append_blank hafter,
      List.append_nil, List.append_nil]
  have hwithin := lower_infix_of_eq halone
  rwa [← hsplit] at hwithin

end StoryCatalog.Text
