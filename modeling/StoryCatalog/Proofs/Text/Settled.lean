import StoryCatalog.Proofs.Text.Case

/-!
# Lower case taken twice

A text in lower case is its own lower-case form (`lower_lower`), since no run of the case table ends
in a code point that another one moves. What is new in such a text is a letter or the dot of an `İ`
(`mem_lower`), so nothing that divides a text comes in with lower case.
-/

namespace StoryCatalog

namespace Text.CaseRun

variable {run other : CaseRun} {n : Nat}

/-- Whether the images of a run are seen not to be code points of another one: they are all below or
above it, or they are even and its code points odd, or the other way round. -/
def misses (run other : CaseRun) : Bool :=
  run.image run.last < other.first || other.last < run.target ||
    ((run.first == run.last || run.step % 2 == 0) && other.step % 2 == 0 &&
      run.target % 2 != other.first % 2)

theorem covers_iff : run.covers n = true ↔
    run.first ≤ n ∧ n ≤ run.last ∧ (n - run.first) % run.step = 0 := by
  simp [covers, and_assoc]

private theorem even_of_step {step m : Nat} (heven : step % 2 = 0) (h : m % step = 0) :
    m % 2 = 0 :=
  Nat.mod_eq_zero_of_dvd
    (Nat.dvd_trans (Nat.dvd_of_mod_eq_zero heven) (Nat.dvd_of_mod_eq_zero h))

theorem not_covers_image (hmisses : run.misses other = true) (hcovers : run.covers n = true) :
    other.covers (run.image n) = false := by
  obtain ⟨hfirst, hlast, hstep⟩ := covers_iff.mp hcovers
  rw [Bool.eq_false_iff]
  intro hother
  obtain ⟨hfirst', hlast', hstep'⟩ := covers_iff.mp hother
  simp only [misses, Bool.or_eq_true, Bool.and_eq_true, decide_eq_true_eq, beq_iff_eq,
    bne_iff_ne] at hmisses
  simp only [image] at hmisses hfirst' hlast' hstep'
  rcases hmisses with (hbelow | habove) | ⟨⟨hrun, heven'⟩, hparity⟩
  · omega
  · omega
  · have hdistance : (n - run.first) % 2 = 0 := by
      rcases hrun with hsingle | heven
      · omega
      · exact even_of_step heven hstep
    have hdistance' : (n - run.first + run.target - other.first) % 2 = 0 :=
      even_of_step heven' hstep'
    omega

end Text.CaseRun

namespace CodePoint

open Text

variable {c d : CodePoint}

/-! ### Code points that lower case moves -/

/-- The runs of all code points that lower case moves. The capital `İ` gets a dot beside its image
here. -/
def capitalRuns : List CaseRun :=
  ⟨0x41, 0x5A, 1, 0x61⟩ :: ⟨0x130, 0x130, 1, 0x69⟩ :: lowerRuns

/-- The dot that is left over a lower-case `İ`. -/
def dotAbove : CodePoint := ofChar '\u0307'

private theorem capitalRuns_misses :
    (capitalRuns.all fun run ↦ capitalRuns.all run.misses) = true := by
  decide +kernel

private theorem capitalRuns_cased : ∀ run ∈ capitalRuns,
    (0x61 ≤ run.target ∧ run.image run.last ≤ 0x7A) ∨
      0x80 ≤ run.target ∧ ∃ range ∈ casedRanges,
        range.1 ≤ run.target ∧ run.image run.last ≤ range.2 := by
  decide +kernel

theorem mapRuns_of_forall_not_covers {runs : List CaseRun}
    (h : ∀ run ∈ runs, run.covers c.val = false) : mapRuns runs c = c := by
  have hnone : runs.find? (·.covers c.val) = none :=
    List.find?_eq_none.mpr fun run hrun ↦ by simp [h run hrun]
  rw [mapRuns, hnone]

theorem mapRuns_eq_or (runs : List CaseRun) (c : CodePoint) :
    mapRuns runs c = c ∨
      ∃ run ∈ runs, run.covers c.val = true ∧ (mapRuns runs c).val = run.image c.val := by
  unfold mapRuns
  split
  · next run hfind =>
    unfold ofNat?
    split
    · have hcovers := List.find?_some hfind
      exact .inr ⟨run, List.mem_of_find?_eq_some hfind, hcovers, rfl⟩
    · exact .inl rfl
  · exact .inl rfl

/-- A code point outside the runs is the same in lower case. -/
theorem isSettled_of_not_covers (h : ∀ run ∈ capitalRuns, run.covers c.val = false) :
    IsSettled c := by
  simp only [capitalRuns, List.forall_mem_cons] at h
  obtain ⟨hascii, hdotted, hruns⟩ := h
  refine ⟨?_, ?_⟩
  · rintro rfl
    exact absurd hruns (by decide +kernel)
  · simp only [CaseRun.covers, Nat.mod_one, beq_self_eq_true, Bool.and_true,
      Bool.and_eq_false_iff, decide_eq_false_iff_not] at hascii hdotted
    rw [lower, dif_neg (by omega), if_neg (show ¬ c.val = 0x130 by omega),
      mapRuns_of_forall_not_covers hruns, ite_self]

/-- What a run gives is settled, and it is a letter. -/
theorem isSettled_of_image {run : CaseRun} (hrun : run ∈ capitalRuns)
    (hcovers : run.covers c.val = true) (hd : d.val = run.image c.val) :
    IsSettled d ∧ d.isCased = true := by
  constructor
  · refine isSettled_of_not_covers fun other hother ↦ ?_
    have hmisses := List.all_eq_true.mp (List.all_eq_true.mp capitalRuns_misses run hrun)
    rw [hd, CaseRun.not_covers_image (hmisses other hother) hcovers]
  · obtain ⟨hfirst, hlast, -⟩ := CaseRun.covers_iff.mp hcovers
    rcases capitalRuns_cased run hrun with ⟨hlow, hhigh⟩ | ⟨hbeyond, range, hrange, hlow, hhigh⟩ <;>
      simp only [CaseRun.image] at hd hhigh
    · simp only [isCased, isLowerAscii, Bool.or_eq_true, Bool.and_eq_true, decide_eq_true_eq]
      omega
    · simp only [isCased, Bool.or_eq_true, Bool.and_eq_true, decide_eq_true_eq, List.any_eq_true]
      exact .inr ⟨by omega, range, hrange, by omega⟩

/-- What is new in the lower-case form of a code point. -/
def IsLowerForm (d : CodePoint) : Prop := IsSettled d ∧ (d.isCased = true ∨ d = dotAbove)

/-- A code point is the same in lower case, or another form takes its place. -/
theorem lower_eq_or (c : CodePoint) : c.lower = [c] ∨ ∀ d ∈ c.lower, d.IsLowerForm := by
  unfold lower
  split
  · next hascii =>
    refine .inr fun d hd ↦ ?_
    rw [List.mem_singleton.mp hd]
    obtain ⟨hsettled, hcased⟩ := isSettled_of_image (c := c) (d := ⟨c.val + 0x20, by omega⟩)
      (List.mem_cons_self (l := ⟨0x130, 0x130, 1, 0x69⟩ :: lowerRuns))
      (CaseRun.covers_iff.mpr ⟨hascii.1, hascii.2, Nat.mod_one _⟩)
      (by simp only [CaseRun.image]; omega)
    exact ⟨hsettled, .inl hcased⟩
  split
  · exact .inl rfl
  split
  · refine .inr (List.forall_mem_cons.mpr ⟨?_, List.forall_mem_singleton.mpr ?_⟩)
    · exact ⟨⟨by decide, rfl⟩, .inl (by decide)⟩
    · exact ⟨⟨by decide, by decide +kernel⟩, .inr rfl⟩
  · rcases mapRuns_eq_or lowerRuns c with heq | ⟨run, hrun, hcovers, hval⟩
    · exact .inl (congrArg (fun d ↦ [d]) heq)
    · refine .inr fun d hd ↦ ?_
      rw [List.mem_singleton.mp hd]
      have hcapital : run ∈ capitalRuns := List.mem_cons_of_mem _ (List.mem_cons_of_mem _ hrun)
      obtain ⟨hsettled, hcased⟩ := isSettled_of_image hcapital hcovers hval
      exact ⟨hsettled, .inl hcased⟩

end CodePoint

namespace Text

open CodePoint

variable {before t : Text}

/-! ### Texts in lower case -/

theorem lowerAt_eq_or (before : Text) (c : CodePoint) (rest : Text) :
    IsSettled c ∧ lowerAt before c rest = [c] ∨ ∀ d ∈ lowerAt before c rest, d.IsLowerForm := by
  have hforms : ∀ d ∈ [CodePoint.ofChar 'ς', CodePoint.ofChar 'σ'], d.IsLowerForm := by
    refine List.forall_mem_cons.mpr ⟨?_, List.forall_mem_singleton.mpr ?_⟩ <;>
      exact ⟨⟨by decide, by decide +kernel⟩, .inl (by decide +kernel)⟩
  unfold lowerAt
  split
  · refine .inr ?_
    split <;> exact List.forall_mem_singleton.mpr (hforms _ (by simp))
  · next hsigma =>
    exact (lower_eq_or c).imp_left fun heq ↦ ⟨⟨hsigma, heq⟩, heq⟩

/-- A text in lower case holds settled code points, of the text or of the forms that are new. -/
theorem mem_lowerAfter {d : CodePoint} (h : d ∈ lowerAfter before t) :
    IsSettled d ∧ (d ∈ t ∨ d.isCased = true ∨ d = dotAbove) := by
  induction t generalizing before with
  | nil => exact absurd h List.not_mem_nil
  | cons c rest ih =>
    rw [lowerAfter_cons, List.mem_append] at h
    rcases h with hhead | hrest
    · rcases lowerAt_eq_or before c rest with ⟨hsettled, heq⟩ | hforms
      · rw [heq, List.mem_singleton] at hhead
        rw [hhead]
        exact ⟨hsettled, .inl List.mem_cons_self⟩
      · exact ⟨(hforms d hhead).1, .inr (hforms d hhead).2⟩
    · obtain ⟨hsettled, hmem⟩ := ih hrest
      exact ⟨hsettled, hmem.imp_left (List.mem_cons_of_mem c)⟩

/-- Lower case brings in letters and dots only. -/
theorem mem_lower {d : CodePoint} (h : d ∈ lower t) :
    d ∈ t ∨ d.isCased = true ∨ d = dotAbove :=
  (mem_lowerAfter h).2

theorem mem_lowerAfter_of_isSettled {c : CodePoint} (hc : IsSettled c) (h : c ∈ t) :
    c ∈ lowerAfter before t := by
  induction t generalizing before with
  | nil => exact absurd h List.not_mem_nil
  | cons d rest ih =>
    rw [lowerAfter_cons, List.mem_append]
    rcases List.mem_cons.mp h with rfl | hrest
    · rw [hc.lowerAt_eq]
      exact .inl (List.mem_singleton_self c)
    · exact .inr (ih hrest)

/-- Settled code points stay in a text. -/
theorem mem_lower_of_isSettled {c : CodePoint} (hc : IsSettled c) (h : c ∈ t) : c ∈ lower t :=
  mem_lowerAfter_of_isSettled hc h

/-- A text in lower case is its own lower-case form. -/
theorem lower_lower (t : Text) : lower (lower t) = lower t :=
  lower_of_isSettled fun _ h ↦ (mem_lowerAfter h).1

end Text

end StoryCatalog
