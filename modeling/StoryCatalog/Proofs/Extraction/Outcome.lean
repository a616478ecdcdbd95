import StoryCatalog.Extraction.Run
import StoryCatalog.Proofs.Catalog.Restoring
import StoryCatalog.Proofs.Extraction.Selection
import StoryCatalog.Proofs.Session.Sound

/-!
# What is kept of a selection

A selection keeps a catalog of one of its strategies, in a session that is still sound
(`ExtractionPlan.selected_isRestorable`). All strategies give catalogs that are read back from what
is written, and none changes a file.
-/

namespace StoryCatalog

open Work

variable {Inv : Session → Prop} {Post : Catalog → Prop} {c : ExtractionContext}
  {limit : Option Number} {s : Session}

/-- A strategy keeps an invariant of sessions, and its catalogs have a property. -/
def Strategy.Provides (Inv : Session → Prop) (Post : Catalog → Prop) (c : ExtractionContext)
    (strategy : Strategy) : Prop :=
  Ensures Inv (fun found ↦ ∀ catalog, found = some catalog → Post catalog) (strategy.extract c)

/-- The session after a selection has an invariant, and the catalog that is kept has a property. -/
def Keeps (Inv : Session → Prop) (Post : Catalog → Prop)
    (result : Except ExtractionError Outcome × Session) : Prop :=
  Inv result.2 ∧ ∀ o catalog, result.1 = .ok o → o.catalog = some catalog → Post catalog

/-! ### Selections -/

/-- An attempt keeps the catalog that its strategy has returned. -/
theorem Behaviour.eq_returned_of_attempt {b : Behaviour} {name : Text} {attempt : Attempt}
    {catalog : Catalog} (h : b.attempt name limit = .ok (attempt, some catalog)) :
    b = .returned (some catalog) := by
  unfold Behaviour.attempt at h
  split at h
  · cases h
  · cases h
  · split at h
    · cases h
    · cases h
      rfl
  · cases h
  · cases h
  · cases h
  · cases h

theorem Behaviour.eq_ok_of_ofResult {r : Except Interruption (Option Catalog)} {catalog : Catalog}
    (h : ofResult r = .returned (some catalog)) : r = .ok (some catalog) := by
  unfold ofResult at h
  split at h
  · cases h
    rfl
  · cases h
  · cases h
  · cases h
  · cases h

namespace Selection

variable {strategy : Strategy} {strategies : List Strategy}

/-- What a strategy provides shows in its behaviour. -/
theorem behaviour_of_provides (limit : Option Number)
    (hlimit : ∀ s left, Inv s → Inv { s with remaining := left })
    (h : strategy.Provides Inv Post c) (hs : Inv s) :
    Inv (behaviour c limit strategy s).2 ∧ ∀ catalog,
      (behaviour c limit strategy s).1 = .returned (some catalog) → Post catalog := by
  unfold behaviour
  split
  · obtain ⟨hinv, hpost⟩ := (Ensures.limited limit hlimit h) s hs
    exact ⟨hinv, fun catalog hreturned ↦
      hpost _ (Behaviour.eq_ok_of_ofResult hreturned) catalog rfl⟩
  · refine ⟨hs, ?_⟩
    intro catalog hreturned
    cases hreturned

/-- Trying strategies keeps what each of them provides. -/
theorem tryAll_keeps (hlimit : ∀ s left, Inv s → Inv { s with remaining := left })
    (h : ∀ strategy ∈ strategies, strategy.Provides Inv Post c) (attempts : List Attempt)
    (hs : Inv s) : Keeps Inv Post (tryAll c limit attempts strategies s) := by
  induction strategies generalizing attempts s with
  | nil =>
    refine ⟨hs, ?_⟩
    intro o catalog ho hcatalog
    cases ho
    cases hcatalog
  | cons strategy rest ih =>
    obtain ⟨hstrategy, hrest⟩ := List.forall_mem_cons.mp h
    obtain ⟨hinv, hpost⟩ := behaviour_of_provides limit hlimit hstrategy hs
    rw [tryAll]
    dsimp only
    split
    · refine ⟨hinv, ?_⟩
      intro o catalog ho
      cases ho
    · next hattempt =>
      refine ⟨hinv, ?_⟩
      intro o catalog ho hcatalog
      cases ho
      cases hcatalog
      exact hpost _ (Behaviour.eq_returned_of_attempt hattempt)
    · exact ih hrest _ hinv

theorem select_keeps (limit : Option Number)
    (hlimit : ∀ s left, Inv s → Inv { s with remaining := left })
    (h : ∀ strategy ∈ strategies, strategy.Provides Inv Post c) (hs : Inv s) :
    Keeps Inv Post (select c limit strategies s) := by
  unfold select
  split
  · refine ⟨hs, ?_⟩
    intro o catalog ho
    cases ho
  · exact tryAll_keeps hlimit h [] hs

end Selection

/-- The strategies of any mode are among those that are tried in development. -/
theorem ExtractionMode.mem_dev_strategies {mode : ExtractionMode} {strategy : Strategy}
    (h : strategy ∈ mode.strategies) : strategy ∈ dev.strategies := by
  cases mode with
  | dev => exact h
  | build =>
    rw [List.mem_singleton.mp h]
    exact List.mem_cons_of_mem _ List.mem_cons_self

namespace ExtractionPlan

/-- Looking for something richer keeps what each strategy provides. -/
theorem enhanced_keeps {outcome : Outcome}
    (hlimit : ∀ s left, Inv s → Inv { s with remaining := left })
    (h : ∀ strategy ∈ ExtractionMode.dev.strategies, strategy.Provides Inv Post c) (hs : Inv s)
    (houtcome : ∀ catalog, outcome.catalog = some catalog → Post catalog) :
    Keeps Inv Post (enhanced c limit outcome s) := by
  have hkept : ∀ o catalog, (.ok outcome : Except ExtractionError Outcome) = .ok o →
      o.catalog = some catalog → Post catalog := by
    rintro o catalog ⟨⟩ hcatalog
    exact houtcome catalog hcatalog
  obtain ⟨hinv, hpost⟩ := Selection.select_keeps limit hlimit h hs
  unfold enhanced
  rcases hselect : Selection.select c limit ExtractionMode.dev.strategies s with ⟨error | other, s'⟩
  · rw [hselect] at hinv hpost
    exact ⟨hinv, hpost⟩
  · rw [hselect] at hinv hpost
    dsimp only
    split
    · next catalog hother =>
      split
      · refine ⟨hinv, ?_⟩
        rintro o found ⟨⟩ ⟨⟩
        exact hpost other catalog rfl hother
      · exact ⟨hinv, hkept⟩
    · exact ⟨hinv, hkept⟩

/-- The outcome of a plan keeps what each strategy provides. -/
theorem selected_keeps (plan : ExtractionPlan)
    (hlimit : ∀ s left, Inv s → Inv { s with remaining := left })
    (h : ∀ strategy ∈ ExtractionMode.dev.strategies, strategy.Provides Inv Post c) (hs : Inv s) :
    Keeps Inv Post (plan.selected c s) := by
  have hmode : ∀ strategy ∈ plan.mode.strategies, strategy.Provides Inv Post c :=
    fun strategy hmem ↦ h strategy (ExtractionMode.mem_dev_strategies hmem)
  obtain ⟨hinv, hpost⟩ := Selection.select_keeps plan.limit hlimit hmode hs
  unfold selected
  rcases hselect : Selection.select c plan.limit plan.mode.strategies s with ⟨error | outcome, s'⟩
  · rw [hselect] at hinv hpost
    exact ⟨hinv, hpost⟩
  · rw [hselect] at hinv hpost
    dsimp only
    split
    · exact enhanced_keeps hlimit h hinv fun catalog ↦ hpost outcome catalog rfl
    · exact ⟨hinv, hpost⟩

end ExtractionPlan

/-! ### Catalogs that are read back -/

namespace Strategy

variable {fs : FileSystem}

private theorem isRestorable_catalogOfIndex {index : StoryIndex} (source : Provenance)
    (now : Timestamp) (h : index.IsTyped) : (catalogOfIndex source now index).IsRestorable := by
  refine Catalog.isRestorable_ofRecords _ _ fun r hr ↦ ?_
  obtain ⟨entry, hentry, rfl⟩ := List.mem_map.mp hr
  exact IndexEntry.isRestorable_toRecord (h entry hentry) entry.1

theorem provides_sourceFiles :
    sourceFiles.Provides (Session.IsSound fs) Catalog.IsRestorable c := by
  refine Ensures.of_eq (perform_extractSources c) fun s found hs hfound catalog hcatalog ↦ ?_
  subst hcatalog
  unfold sourcesResult at hfound
  split at hfound
  · cases hfound
  · dsimp only at hfound
    split at hfound
    · cases hfound
    · split at hfound
      · next hcatalog =>
        cases hfound
        exact StoryFile.isRestorable_catalogOf hcatalog
      · cases hfound

theorem provides_builtStorybook :
    builtStorybook.Provides (Session.IsSound fs) Catalog.IsRestorable c := by
  refine Ensures.of_eq (r := fun s ↦ .ok (builtResult c s)) (perform_extractBuilt c)
    fun s found hs hfound catalog hcatalog ↦ ?_
  subst hcatalog
  obtain ⟨p, -, rfl⟩ := Option.map_eq_some_iff.mp (Except.ok.inj hfound)
  split
  · next hindex => exact isRestorable_catalogOfIndex _ _ (StoryIndex.isTyped_of_read hindex)
  · have hnone : ∀ r ∈ ([] : List StoryRecord), r.IsRestorable := by simp
    exact Catalog.isRestorable_ofRecords _ _ hnone

theorem provides_storybookIndex :
    storybookIndex.Provides (Session.IsSound fs) Catalog.IsRestorable c := by
  refine Ensures.bind c.ensures_liveIndex fun found hfound ↦ ?_
  cases found with
  | none => exact .pure (by rintro catalog ⟨⟩)
  | some index =>
    refine Ensures.bind .get fun s hs ↦ .pure ?_
    rintro catalog ⟨⟩
    exact isRestorable_catalogOfIndex _ _ (hfound index rfl)

/-! ### Introspected stories -/

variable (i : Introspector)

private theorem ensures_introspectEntry (key : Text) {entry : IndexEntry} (h : entry.type ≠ []) :
    Ensures (Session.IsSound fs) (fun result ↦ result.1.IsRestorable)
      (introspectEntry i key entry) := by
  refine Ensures.bind (i.ensures_isProper _) fun result hresult ↦ ?_
  cases result with
  | error error => exact .pure (IndexEntry.isRestorable_toRecord h key)
  | ok fields =>
    dsimp only
    split
    · next record hrecord =>
      exact .pure (IndexEntry.isRestorable_toRuntimeRecord h (hresult fields rfl) record hrecord)
    · exact .fail _

private theorem ensures_introspectAll {entries : List (Text × IndexEntry)}
    (h : ∀ entry ∈ entries, entry.2.type ≠ []) :
    Ensures (Session.IsSound fs) (fun result ↦ ∀ r ∈ result.1, r.IsRestorable)
      (introspectAll i entries) := by
  induction entries with
  | nil => exact .pure (by simp)
  | cons entry rest ih =>
    obtain ⟨hentry, hrest⟩ := List.forall_mem_cons.mp h
    refine Ensures.bind (ensures_introspectEntry i entry.1 hentry) fun first hfirst ↦ ?_
    refine Ensures.bind (ih hrest) fun more hmore ↦ .pure ?_
    exact List.forall_mem_cons.mpr ⟨hfirst, hmore⟩

private theorem ensures_openAndIntrospect {entries : List (Text × IndexEntry)}
    (h : ∀ entry ∈ entries, entry.2.type ≠ []) :
    Ensures (Session.IsSound fs)
      (fun found ↦ ∀ result, found = some result → ∀ r ∈ result.1, r.IsRestorable)
      (openAndIntrospect i entries) := by
  refine Ensures.bind (i.ensures_openManager Session.keptByPage_isSound) fun opened _ ↦ ?_
  split
  · exact .pure (by rintro result ⟨⟩)
  · exact .fail _
  · refine Ensures.bind (.tryFinally (ensures_introspectAll i h) Introspector.ensures_close)
      fun result hresult ↦ .pure ?_
    rintro found ⟨⟩
    exact hresult

theorem provides_runningStorybook :
    runningStorybook.Provides (Session.IsSound fs) Catalog.IsRestorable c := by
  have hnone : Ensures (Session.IsSound fs)
      (fun found ↦ ∀ catalog, found = some catalog → catalog.IsRestorable)
      (pure none : Work (Option Catalog)) := .pure (by rintro catalog ⟨⟩)
  refine Ensures.bind c.ensures_liveIndex fun found hfound ↦ ?_
  cases found with
  | none => exact hnone
  | some index =>
    dsimp only
    split
    · exact hnone
    · refine Ensures.bind (ensures_openAndIntrospect c.introspector (hfound index rfl))
        fun opened hopened ↦ ?_
      split
      · next records =>
        refine Ensures.bind .get fun s hs ↦ .pure ?_
        rintro catalog ⟨⟩
        exact Catalog.isRestorable_ofRecords _ _ (hopened _ rfl)
      · exact hnone

/-- All strategies give catalogs that are read back, and leave the session sound. -/
theorem provides_of_mem (strategy : Strategy) (h : strategy ∈ ExtractionMode.dev.strategies) :
    strategy.Provides (Session.IsSound fs) Catalog.IsRestorable c := by
  simp only [ExtractionMode.strategies, List.mem_cons, List.not_mem_nil, or_false] at h
  rcases h with rfl | rfl | rfl | rfl
  · exact provides_sourceFiles
  · exact provides_builtStorybook
  · exact provides_runningStorybook
  · exact provides_storybookIndex

end Strategy

/-- The catalog that a plan keeps is read back from what is written, and no file has changed. -/
theorem ExtractionPlan.selected_isRestorable (plan : ExtractionPlan) (c : ExtractionContext)
    (hs : s.IsSound s.files) :
    Keeps (Session.IsSound s.files) Catalog.IsRestorable (plan.selected c s) :=
  plan.selected_keeps (fun _ _ h ↦ ⟨h.files, h.page, h.index⟩) Strategy.provides_of_mem hs

end StoryCatalog
