import StoryCatalog.Proofs.Text.Case
import StoryCatalog.Text.Slug

/-!
# Slugs of joined texts

A slug is made code point by code point, apart from two things: a run of white space gives one
hyphen, and the form of a sigma depends on the letters around it. Hyphens between two texts keep
their white space apart, and no form of a sigma is in a slug, so the identifier of a story is made
of the slugs of its title and its name (`storyId_eq`).
-/

namespace StoryCatalog.Text

variable {t : Text}

/-! ### Runs of a class -/

/-- What is behind a code point outside the class has no part in the runs before it. -/
theorem squeeze_append_cons {p : CodePoint → Bool} {c : CodePoint} (mark : CodePoint)
    (h : p c = false) (s t : Text) :
    squeeze p mark (s ++ c :: t) = squeeze p mark s ++ c :: squeeze p mark t := by
  have hhead : squeeze p mark (c :: t) = c :: squeeze p mark t := by simp [squeeze, h]
  fun_induction squeeze p mark s with
  | case1 => exact hhead
  | case2 d hd =>
    simp only [List.cons_append, List.nil_append, squeeze, hd, h, if_true]
    simp
  | case3 d hd e rest he ih =>
    rw [List.cons_append, List.cons_append, squeeze, if_pos hd]
    simpa [he] using ih
  | case4 d hd e rest he ih =>
    rw [List.cons_append, List.cons_append, squeeze, if_pos hd]
    simpa [he] using ih
  | case5 d rest hd ih => simp [squeeze, hd, ih]

/-- Changing code points inside and outside the class apart from each other leaves the runs. -/
theorem squeeze_map {p : CodePoint → Bool} {f : CodePoint → CodePoint} {mark : CodePoint}
    (hclass : ∀ c, p (f c) = p c) (hmark : f mark = mark) (t : Text) :
    squeeze p mark (t.map f) = (squeeze p mark t).map f := by
  fun_induction squeeze p mark t with
  | case1 => rfl
  | case2 d hd => simp [squeeze, hclass, hd, hmark]
  | case3 d hd e rest he ih => simpa [squeeze, hclass, hd, he] using ih
  | case4 d hd e rest he ih => simpa [squeeze, hclass, hd, he, hmark] using ih
  | case5 d rest hd ih => simp [squeeze, hclass, hd, ih]

theorem squeeze_of_forall_not {p : CodePoint → Bool} (mark : CodePoint)
    (h : ∀ c ∈ t, p c = false) : squeeze p mark t = t := by
  induction t with
  | nil => rfl
  | cons c rest ih =>
    rw [List.forall_mem_cons] at h
    simp [squeeze, h.1, ih h.2]

/-! ### Slugs of texts in lower case -/

/-- The hyphen, which stands for white space and slashes. -/
def hyphen : CodePoint := CodePoint.ofChar '-'

/-- The code point that stands for another one in a slug, if it may. -/
def slugPoint (c : CodePoint) : CodePoint := if c = CodePoint.ofChar '/' then hyphen else c

/-- The slug of a text that is in lower case already. -/
def slugOfLower (t : Text) : Text :=
  ((squeeze CodePoint.isBlank hyphen t).map slugPoint).filter CodePoint.isSlugSafe

theorem slugify_eq (t : Text) : slugify t = slugOfLower (lower t) := rfl

/-- Hyphens keep the white space before them from that behind them. -/
theorem slugOfLower_append_hyphen (s t : Text) :
    slugOfLower (s ++ hyphen :: t) = slugOfLower s ++ hyphen :: slugOfLower t := by
  have hpoint : slugPoint hyphen = hyphen := by decide
  have hsafe : hyphen.isSlugSafe = true := by decide
  rw [slugOfLower, squeeze_append_cons hyphen (by decide), List.map_append, List.map_cons,
    List.filter_append, hpoint, List.filter_cons_of_pos hsafe]
  rfl

/-- Code points may be changed into others that are neither blank nor a slash nor safe. -/
theorem slugOfLower_map {f : CodePoint → CodePoint}
    (h : ∀ c, f c = c ∨ ∀ d ∈ [c, f c],
      d.isBlank = false ∧ d ≠ CodePoint.ofChar '/' ∧ d.isSlugSafe = false) (t : Text) :
    slugOfLower (t.map f) = slugOfLower t := by
  have hblank : ∀ c, (f c).isBlank = c.isBlank := by grind
  have hmark : f hyphen = hyphen :=
    (h hyphen).resolve_right fun hd ↦ absurd (hd hyphen (by simp)).2.2 (by decide)
  rw [slugOfLower, squeeze_map hblank hmark, slugOfLower, List.map_map]
  generalize squeeze CodePoint.isBlank hyphen t = joined
  induction joined with
  | nil => rfl
  | cons c rest ih =>
    rcases h c with hc | hc
    · simp only [List.map_cons, Function.comp_apply, hc, List.filter_cons, ih]
    · obtain ⟨-, hslash, hsafe⟩ := hc c (by simp)
      obtain ⟨-, hslash', hsafe'⟩ := hc (f c) (by simp)
      simp [slugPoint, hslash, hslash', hsafe, hsafe', ih]

/-! ### The form of a sigma -/

/-- A code point with the inner sigma in the place of a final one. -/
def inner (c : CodePoint) : CodePoint :=
  if c = CodePoint.ofChar 'ς' then CodePoint.ofChar 'σ' else c

/-- Apart from the form of sigmas, a text in lower case does not depend on what is around it. -/
theorem map_inner_lowerBetween (t before after before' after' : Text) :
    (lowerBetween before t after).map inner = (lowerBetween before' t after').map inner := by
  have hat : ∀ before rest before' rest' c,
      (lowerAt before c rest).map inner = (lowerAt before' c rest').map inner := by
    intro before rest before' rest' c
    unfold lowerAt
    split
    · split <;> split <;> decide
    · rfl
  induction t generalizing before before' with
  | nil => rfl
  | cons c rest ih =>
    rw [lowerBetween, lowerBetween, List.map_append, List.map_append,
      ih (c :: before) (c :: before'), hat before (rest ++ after) before' (rest ++ after')]

/-- No form of a sigma is in a slug, so it is the same between any texts. -/
theorem slugOfLower_lowerBetween (before t after : Text) :
    slugOfLower (lowerBetween before t after) = slugify t := by
  have hinner : ∀ t, slugOfLower (t.map inner) = slugOfLower t := by
    refine slugOfLower_map fun c ↦ ?_
    by_cases hc : c = CodePoint.ofChar 'ς'
    · refine .inr ?_
      rw [hc]
      decide
    · exact .inl (if_neg hc)
  rw [slugify_eq, lower, ← lowerBetween_nil_right, ← hinner, map_inner_lowerBetween t before after,
    hinner]

/-! ### Code points of slugs -/

/-- The code points that slugs are made of. -/
def slugAlphabet : Text := "abcdefghijklmnopqrstuvwxyz0123456789-"

theorem mem_slugAlphabet_iff {c : CodePoint} : c ∈ slugAlphabet ↔ c.isSlugSafe = true := by
  constructor
  · have hsafe : ∀ c ∈ slugAlphabet, c.isSlugSafe = true := by decide
    exact hsafe c
  · have hvalues : ∀ n ∈ List.range' 0x61 26 ++ List.range' 0x30 10 ++ [0x2D],
        ∀ hn : n < 0x110000, (⟨n, hn⟩ : CodePoint) ∈ slugAlphabet := by decide
    intro h
    refine hvalues c.val ?_ c.isLt
    simp only [CodePoint.isSlugSafe, CodePoint.isLowerAlphanumeric, CodePoint.isLowerAscii,
      CodePoint.isDigit, Bool.or_eq_true, Bool.and_eq_true, decide_eq_true_eq] at h
    simp only [List.mem_append, List.mem_range'_1, List.mem_singleton]
    rcases h with (h | h) | h
    · omega
    · omega
    · rw [h]
      decide

theorem mem_slugAlphabet_of_mem_slugify {c : CodePoint} (h : c ∈ slugify t) : c ∈ slugAlphabet :=
  mem_slugAlphabet_iff.mpr (List.mem_filter.mp h).2

theorem isSettled_of_mem_slugAlphabet {c : CodePoint} (h : c ∈ slugAlphabet) : IsSettled c := by
  have hascii : ∀ c ∈ slugAlphabet, c.val < 0x80 ∧ ¬ (0x41 ≤ c.val ∧ c.val ≤ 0x5A) := by decide
  exact isSettled_of_ascii (hascii c h).1 (hascii c h).2

/-- Slugs are the texts that stay as they are. -/
theorem slugify_eq_self_iff : slugify t = t ↔ ∀ c ∈ t, c ∈ slugAlphabet := by
  constructor
  · intro h c hc
    rw [← h] at hc
    exact mem_slugAlphabet_of_mem_slugify hc
  · intro h
    have hpoint : ∀ c ∈ slugAlphabet, c.isBlank = false ∧ slugPoint c = c := by decide
    have hmap : t.map slugPoint = t :=
      (List.map_congr_left fun c hc ↦ (hpoint c (h c hc)).2).trans (List.map_id t)
    have hlower : lower t = t :=
      lower_of_isSettled fun c hc ↦ isSettled_of_mem_slugAlphabet (h c hc)
    rw [slugify_eq, hlower, slugOfLower,
      squeeze_of_forall_not hyphen fun c hc ↦ (hpoint c (h c hc)).1, hmap, List.filter_eq_self]
    exact fun c hc ↦ mem_slugAlphabet_iff.mp (h c hc)

/-! ### Identifiers of stories -/

theorem slugify_append_hyphens (s t : Text) :
    slugify (s ++ ("--" : Text) ++ t) = slugify s ++ ("--" : Text) ++ slugify t := by
  have hhyphens : ("--" : Text) = [hyphen, hyphen] := rfl
  have hbetween : ∀ before after, lowerBetween before [hyphen, hyphen] after = [hyphen, hyphen] :=
    fun _ _ ↦ rfl
  have hempty : ∀ t, slugOfLower (hyphen :: t) = hyphen :: slugOfLower t :=
    slugOfLower_append_hyphen []
  rw [slugify_eq, hhyphens, lower_append, hbetween, ← lowerBetween_nil_right]
  simp only [List.append_assoc, List.cons_append, List.nil_append]
  rw [slugOfLower_append_hyphen, hempty, slugOfLower_lowerBetween, slugOfLower_lowerBetween]

/-- The identifier of a story is made of the slugs of its title and its name. Slugs are texts of
their alphabet, and slugs of themselves. -/
theorem storyId_eq (title name : Text) :
    storyId title name = slugify title ++ ("--" : Text) ++ slugify name ∧
      ∀ t, (∀ c ∈ slugify t, c ∈ slugAlphabet) ∧ slugify (slugify t) = slugify t := by
  refine ⟨slugify_append_hyphens title name, fun t ↦ ?_⟩
  have hmem : ∀ c ∈ slugify t, c ∈ slugAlphabet := fun c hc ↦ mem_slugAlphabet_of_mem_slugify hc
  exact ⟨hmem, slugify_eq_self_iff.mpr hmem⟩

end StoryCatalog.Text
