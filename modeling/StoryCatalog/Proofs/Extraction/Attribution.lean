import StoryCatalog.Proofs.Extraction.Enhancement
import StoryCatalog.Proofs.Extraction.Order
import StoryCatalog.Proofs.Extraction.Outcome

/-!
# Which strategy an outcome names

An outcome names the first of its attempts that has succeeded. After one selection that is the
strategy whose catalog was kept. After an enhanced run that has exchanged the catalog of a built
Storybook it still is the one for the built Storybook, because its attempts stand first
(`ExtractionPlan.isAttributed_of_run`).
-/

namespace StoryCatalog

open Work

variable {c : ExtractionContext} {limit : Option Number} {s s' : Session}

namespace Outcome

variable {o : Outcome} {before after : List Attempt} {last : Attempt}

/-- What an outcome names is where its catalog was extracted from; without a catalog it names
nothing. -/
def NamesKept (o : Outcome) : Prop := o.strategy? = o.catalog.map (·.extractedFrom.name)

/-- Without an attempt that has succeeded no strategy is named. -/
theorem strategy?_eq_none (h : ∀ attempt ∈ o.attempts, attempt.status ≠ .succeeded) :
    o.strategy? = none := by
  have hfind : o.attempts.find? (·.status == .succeeded) = none := by
    rw [List.find?_eq_none]
    intro attempt hattempt
    simpa using h attempt hattempt
  rw [strategy?, hfind, Option.map_none]

/-- The first attempt that has succeeded is named. -/
theorem strategy?_eq_some (catalog : Option Catalog)
    (hbefore : ∀ attempt ∈ before, attempt.status ≠ .succeeded)
    (hlast : last.status = .succeeded) :
    (⟨catalog, before ++ last :: after⟩ : Outcome).strategy? = some last.name := by
  have hnone : before.find? (·.status == .succeeded) = none := by
    rw [List.find?_eq_none]
    intro attempt hattempt
    simpa using hbefore attempt hattempt
  rw [strategy?, List.find?_append, hnone, List.find?_cons_of_pos (by simp [hlast])]
  rfl

/-- Later attempts do not change which strategy is named. -/
theorem strategy?_append {name : Text} (h : o.strategy? = some name) (catalog : Option Catalog)
    (more : List Attempt) : (⟨catalog, o.attempts ++ more⟩ : Outcome).strategy? = some name := by
  obtain ⟨attempt, hfind, hname⟩ := Option.map_eq_some_iff.mp h
  rw [strategy?, List.find?_append, hfind, Option.some_or, Option.map_some, hname]

end Outcome

/-! ### One selection -/

namespace Selection

variable {strategy : Strategy} {strategies : List Strategy} {catalog : Catalog} {o : Outcome}

/-- The first of some strategies that does not pass on has returned the catalog. -/
def Chooses (c : ExtractionContext) (limit : Option Number) (strategies : List Strategy)
    (s : Session) (strategy : Strategy) (catalog : Catalog) : Prop :=
  ∃ before after, strategies = before ++ strategy :: after ∧
    (∀ trial ∈ (trials c limit before s).1, trial.2.PassesOn) ∧
    (behaviour c limit strategy (trials c limit before s).2).1 = .returned (some catalog)

/-- A selection that comes to an outcome has a valid context. -/
theorem validate_of_select (h : select c limit strategies s = (.ok o, s')) :
    c.validate s.files = .ok () := by
  cases hvalid : c.validate s.files with
  | ok _ => rfl
  | error error =>
    rw [select, hvalid] at h
    cases h

theorem Chooses.mem (h : Chooses c limit strategies s strategy catalog) :
    strategy ∈ strategies := by
  obtain ⟨before, after, rfl, -⟩ := h
  simp

/-- The strategy that an outcome of a selection names has returned the catalog that is kept; if none
is kept, none is named. -/
theorem strategy?_of_select (h : select c limit strategies s = (.ok o, s')) :
    o.catalog = none ∧ o.strategy? = none ∨
      ∃ strategy catalog, Chooses c limit strategies s strategy catalog ∧
        o.catalog = some catalog ∧ o.strategy? = some strategy.name := by
  unfold select at h
  split at h
  · cases h
  · rcases exists_first c limit strategies s with hall | ⟨before, strategy, after, rfl, hb, hstops⟩
    · left
      obtain ⟨attempts, htell, htry⟩ := tryAll_append_of_passesOn [] [] s hall
      rw [List.append_nil, List.nil_append] at htry
      rw [htry] at h
      cases h
      exact ⟨rfl, Outcome.strategy?_eq_none (ne_succeeded_of_passesOn htell hall)⟩
    · right
      obtain ⟨attempts, htell, htry⟩ := tryAll_append_of_passesOn [] (strategy :: after) s hb
      rw [List.append_assoc, List.singleton_append, htry, List.nil_append, tryAll] at h
      dsimp only at h
      rcases Behaviour.passesOn_or (behaviour c limit strategy (trials c limit before s).2).1 with
        hpasses | ⟨catalog, hreturned, hsize⟩ | ⟨error, hmisconfigured⟩
      · exact absurd hpasses hstops
      · rw [hreturned, Behaviour.attempt, if_neg hsize] at h
        cases h
        refine ⟨strategy, catalog, ⟨before, after, by simp, hb, hreturned⟩, rfl, ?_⟩
        exact Outcome.strategy?_eq_some _ (ne_succeeded_of_passesOn htell hb) rfl
      · rw [hmisconfigured] at h
        cases h

end Selection

/-! ### Where catalogs say that they come from -/

namespace Strategy

/-- A strategy has the name of the source that its catalogs say they were extracted from. -/
structure IsStamped (c : ExtractionContext) (strategy : Strategy) : Prop where
  name : strategy.name = strategy.provenance.name
  provides : strategy.Provides (fun _ ↦ True) (·.extractedFrom = strategy.provenance) c

private theorem stamps_none {source : Provenance} :
    ∀ catalog, (none : Option Catalog) = some catalog → catalog.extractedFrom = source := by
  rintro catalog ⟨⟩

private theorem stamps_ofRecords (source : Provenance) (now : Timestamp)
    (records : List StoryRecord) : ∀ catalog, some (Catalog.ofRecords source now records) =
      some catalog → catalog.extractedFrom = source := by
  rintro catalog ⟨⟩
  exact Catalog.extractedFrom_ofRecords source now records

theorem isStamped_sourceFiles : sourceFiles.IsStamped c where
  name := rfl
  provides := by
    apply Ensures.of_eq (perform_extractSources c)
    rintro s found - hfound catalog rfl
    exact extractedFrom_sourcesResult hfound

theorem isStamped_builtStorybook : builtStorybook.IsStamped c where
  name := rfl
  provides := by
    apply Ensures.of_eq (r := fun s ↦ .ok (builtResult c s)) (perform_extractBuilt c)
    rintro s found - hfound catalog rfl
    exact extractedFrom_builtResult (Except.ok.inj hfound)

theorem isStamped_runningStorybook : runningStorybook.IsStamped c where
  name := rfl
  provides := by
    apply Ensures.bind (.any _)
    rintro (_ | index) -
    · exact .pure stamps_none
    · dsimp only
      split
      · exact .pure stamps_none
      · apply Ensures.bind (.any _)
        intro opened _
        split
        · exact Ensures.bind .get fun s _ ↦ .pure (stamps_ofRecords _ _ _)
        · exact .pure stamps_none

theorem isStamped_storybookIndex : storybookIndex.IsStamped c where
  name := rfl
  provides := by
    apply Ensures.bind (.any _)
    rintro (_ | index) -
    · exact .pure stamps_none
    · exact Ensures.bind .get fun s _ ↦ .pure (stamps_ofRecords _ _ _)

theorem isStamped_of_mem {mode : ExtractionMode} {strategy : Strategy}
    (h : strategy ∈ mode.strategies) : strategy.IsStamped c := by
  have hmem := ExtractionMode.mem_dev_strategies h
  simp only [ExtractionMode.strategies, List.mem_cons, List.not_mem_nil, or_false] at hmem
  rcases hmem with rfl | rfl | rfl | rfl
  · exact isStamped_sourceFiles
  · exact isStamped_builtStorybook
  · exact isStamped_runningStorybook
  · exact isStamped_storybookIndex

end Strategy

/-- The catalog that is chosen names the strategy that has returned it. -/
theorem Selection.Chooses.name_eq {mode : ExtractionMode} {strategy : Strategy} {catalog : Catalog}
    (h : Chooses c limit mode.strategies s strategy catalog) :
    strategy.name = catalog.extractedFrom.name := by
  obtain ⟨hname, hprovides⟩ := Strategy.isStamped_of_mem (c := c) h.mem
  obtain ⟨before, after, -, -, hreturned⟩ := h
  have hfrom := (behaviour_of_provides limit (fun _ _ ↦ id) hprovides trivial).2 catalog hreturned
  rw [hname, hfrom]

/-! ### Runs -/

namespace ExtractionPlan

open Selection

variable {plan : ExtractionPlan} {o : Outcome} {strategy : Strategy} {catalog built : Catalog}

/-- The strategy has returned the catalog to a run: to the selection of its mode, or to the second
selection of an enhanced run. -/
def Chooses (plan : ExtractionPlan) (c : ExtractionContext) (s : Session) (strategy : Strategy)
    (catalog : Catalog) : Prop :=
  Selection.Chooses c plan.limit plan.mode.strategies s strategy catalog ∨
    plan.mode = .build ∧ plan.enhance = true ∧
      Selection.Chooses c plan.limit ExtractionMode.dev.strategies s strategy catalog

/-- An enhanced run finds a built Storybook, and source files to take in its place. -/
def ExchangesBuilt (plan : ExtractionPlan) (c : ExtractionContext) (s : Session) : Prop :=
  plan.mode = .build ∧ plan.enhance = true ∧
    (contribution? c plan.limit .builtStorybook s).isSome = true ∧
    (contribution? c plan.limit .sourceFiles s).isSome = true

/-- A catalog that is chosen for a plan names its strategy. -/
theorem Chooses.name_eq (h : plan.Chooses c s strategy catalog) :
    strategy.name = catalog.extractedFrom.name := by
  rcases h with h | ⟨-, -, h⟩
  · exact h.name_eq
  · exact h.name_eq

/-- What is known of the outcome of a plan: where its catalog comes from, and which strategy it
names. -/
structure IsAttributed (plan : ExtractionPlan) (c : ExtractionContext) (s : Session)
    (o : Outcome) : Prop where
  /-- A strategy is named exactly if there is a catalog. -/
  named_iff : o.strategy? = none ↔ o.catalog = none
  /-- The catalog names the strategy that has returned it. -/
  chosen : ∀ catalog, o.catalog = some catalog →
    ∃ strategy, plan.Chooses c s strategy catalog ∧ strategy.name = catalog.extractedFrom.name
  /-- The outcome names that strategy too, unless the catalog was exchanged. -/
  namesKept_iff : o.NamesKept ↔ ¬ plan.ExchangesBuilt c s
  /-- After an exchange the strategy for the built Storybook is named. -/
  exchanged : plan.ExchangesBuilt c s → o.strategy? = some Strategy.builtStorybook.name

/-- An outcome is attributed to the right strategy if that has returned its catalog, and no catalog
was exchanged. -/
private theorem isAttributed_of_chooses (hkept : ¬ plan.ExchangesBuilt c s)
    (h : o.catalog = none ∧ o.strategy? = none ∨
      ∃ strategy catalog, plan.Chooses c s strategy catalog ∧
        o.catalog = some catalog ∧ o.strategy? = some strategy.name) :
    plan.IsAttributed c s o := by
  rcases h with ⟨hcatalog, hname⟩ | ⟨strategy, catalog, hchooses, hcatalog, hname⟩
  · constructor
    · simp [hcatalog, hname]
    · simp [hcatalog]
    · simp [Outcome.NamesKept, hcatalog, hname, hkept]
    · exact fun hexchanges ↦ absurd hexchanges hkept
  · have hfrom := hchooses.name_eq
    constructor
    · simp [hcatalog, hname]
    · intro found hfound
      rw [hcatalog] at hfound
      cases hfound
      exact ⟨strategy, hchooses, hfrom⟩
    · simp [Outcome.NamesKept, hcatalog, hname, hfrom, hkept]
    · exact fun hexchanges ↦ absurd hexchanges hkept

/-- The selection of the plan's own mode chooses for the plan. -/
private theorem chooses_of_select (h : select c plan.limit plan.mode.strategies s = (.ok o, s')) :
    o.catalog = none ∧ o.strategy? = none ∨
      ∃ strategy catalog, plan.Chooses c s strategy catalog ∧
        o.catalog = some catalog ∧ o.strategy? = some strategy.name := by
  rcases strategy?_of_select h with hnone | ⟨strategy, catalog, hchooses, hkept⟩
  · exact .inl hnone
  · exact .inr ⟨strategy, catalog, .inl hchooses, hkept⟩

/-- A selection for a built Storybook that keeps a catalog has found it in the session that it
leaves. -/
private theorem contribution?_of_select_build
    (h : select c limit ExtractionMode.build.strategies s = (.ok o, s'))
    (hcatalog : o.catalog = some catalog) :
    c.validate s.files = .ok () ∧ s' = s ∧
      contribution? c limit .builtStorybook s = some catalog ∧
      o.strategy? = some Strategy.builtStorybook.name := by
  have hvalid := validate_of_select h
  obtain ⟨hsession, -, hconfig⟩ := Strategy.behaviour_builtStorybook c limit s
  rw [select, hvalid] at h
  dsimp only [ExtractionMode.strategies] at h
  cases hcontribution : contribution? c limit .builtStorybook s with
  | none =>
    obtain ⟨attempt, -, -, hnext⟩ := tryAll_cons_of_none [] [] hsession hcontribution hconfig
    rw [hnext] at h
    cases h
    cases hcatalog
  | some built =>
    rw [tryAll_cons_of_contribution [] [] hsession hcontribution] at h
    cases h
    cases hcatalog
    refine ⟨hvalid, rfl, rfl, ?_⟩
    have hbefore : ∀ attempt ∈ ([] : List Attempt), attempt.status ≠ .succeeded := by simp
    exact Outcome.strategy?_eq_some _ hbefore rfl

/-- Looking for something richer comes to an attributed outcome. -/
private theorem isAttributed_of_enhanced {outcome : Outcome} (hmode : plan.mode = .build)
    (henhance : plan.enhance = true)
    (hselect : select c plan.limit plan.mode.strategies s = (.ok outcome, s'))
    (hbuilt : outcome.catalog = some built)
    (h : (enhanced c plan.limit outcome s').1 = .ok o) : plan.IsAttributed c s o := by
  have hchosen := chooses_of_select hselect
  rw [hmode] at hselect
  obtain ⟨hvalid, rfl, hcontribution, hname⟩ := contribution?_of_select_build hselect hbuilt
  obtain ⟨attempts, hdev⟩ := select_dev plan.limit hvalid hcontribution
  rw [enhanced, hdev] at h
  dsimp only at h
  cases hsources : contribution? c plan.limit .sourceFiles s' with
  | none =>
    -- The second selection stops at the built Storybook again.
    have hdeep : ¬ built.extractedFrom.isDeep = true := by
      rw [(Strategy.extractedFrom_of_builtStorybook hcontribution).2]
      decide
    rw [hsources, Option.getD_none, if_neg hdeep] at h
    cases h
    apply isAttributed_of_chooses _ hchosen
    rintro ⟨-, -, -, hsome⟩
    simp [hsources] at hsome
  | some found =>
    have hfrom := (Strategy.extractedFrom_of_sourceFiles hsources).2
    have hdeep : found.extractedFrom.isDeep = true := by
      rw [hfrom]
      rfl
    rw [hsources, Option.getD_some, if_pos hdeep] at h
    cases h
    have hexchanges : plan.ExchangesBuilt c s' :=
      ⟨hmode, henhance, by rw [hcontribution]; rfl, by rw [hsources]; rfl⟩
    have hnamed := Outcome.strategy?_append hname (some found) attempts
    rcases strategy?_of_select hdev with ⟨hnone, -⟩ | ⟨strategy, catalog, hchooses, hkept, -⟩
    · rw [hsources] at hnone
      cases hnone
    · rw [hsources] at hkept
      cases hkept
      constructor
      · simp [hnamed]
      · rintro _ ⟨⟩
        exact ⟨strategy, .inr ⟨hmode, henhance, hchooses⟩, hchooses.name_eq⟩
      · rw [Outcome.NamesKept, hnamed, Option.map_some, hfrom]
        exact iff_of_false (by decide) (not_not.mpr hexchanges)
      · exact fun _ ↦ hnamed

/-- What a plan selects is attributed. -/
private theorem isAttributed_of_selected (h : (plan.selected c s).1 = .ok o) :
    plan.IsAttributed c s o := by
  unfold selected at h
  rcases hselect : select c plan.limit plan.mode.strategies s with ⟨error | outcome, s'⟩
  · rw [hselect] at h
    cases h
  · rw [hselect] at h
    dsimp only at h
    split at h
    · next hrich =>
      simp only [Bool.and_eq_true, decide_eq_true_eq] at hrich
      obtain ⟨⟨henhance, hmode⟩, hsucceeded⟩ := hrich
      obtain ⟨built, hbuilt⟩ := Option.isSome_iff_exists.mp hsucceeded
      exact isAttributed_of_enhanced hmode henhance hselect hbuilt h
    · next hplain =>
      cases h
      apply isAttributed_of_chooses _ (chooses_of_select hselect)
      rintro ⟨hmode, henhance, hbuilt, -⟩
      obtain ⟨built, hbuilt⟩ := Option.isSome_iff_exists.mp hbuilt
      refine hplain ?_
      obtain ⟨attempts, hfirst⟩ := select_build plan.limit (validate_of_select hselect) hbuilt
      rw [hmode, hfirst] at hselect
      cases hselect
      simp [hmode, henhance, Outcome.hasSucceeded]

/-- A run comes to no other outcome than its selection. -/
theorem selected_of_run {time clock : Binary64} {trouble : Snapshot.Trouble} {store : CatalogStore}
    (h : (plan.run c time clock trouble store s).1 = .ok o) : (plan.selected c s).1 = .ok o := by
  unfold run at h
  split at h
  · cases h
  · next hselected =>
    rw [hselected]
    split at h
    · cases h
      rfl
    · split at h
      · cases h
      · cases h
        rfl

/-- **The strategy that a run names.** Whenever a run comes to an outcome, a strategy is named
exactly if there is a catalog, and it is the strategy that has returned the catalog, unless the
catalog of a built Storybook was exchanged for that of the source files. -/
theorem isAttributed_of_run {time clock : Binary64} {trouble : Snapshot.Trouble}
    {store : CatalogStore} (h : (plan.run c time clock trouble store s).1 = .ok o) :
    plan.IsAttributed c s o :=
  isAttributed_of_selected (selected_of_run h)

/-! ### A project with a story file and a built Storybook -/

/-- A session with a story file and the index of a built Storybook. -/
def indexedSession : Session :=
  let s := StoryFile.sessionOfOne "export const A=1"
  let index := (Text.ofString "\x7b\"entries\":\x7b\"a\":\x7b\x7d\x7d\x7d").flatMap
    Utf8.encodeCodePoint
  { s with files := s.files.put ["p", "index.json"] (.file index (.ofInt 0)) }

/-- A context for both, with a source directory or without. -/
def indexedContext (sources : Option Path) : ExtractionContext :=
  { StoryFile.contextOfOne with sourceDirectory := sources, outputDirectory := some ⟨"/", ["p"]⟩ }

/-- The enhanced run for the built Storybook. -/
def exchangingRun (sources : Option Path) : Except RunFault Outcome :=
  ((⟨.build, true, none, none⟩ : ExtractionPlan).run (indexedContext sources) (.ofInt 0) (.ofInt 0)
    .none .empty indexedSession).1

/-- The strategy that an outcome names, and the source that its catalog was extracted from. -/
private def reported (result : Except RunFault Outcome) :
    Option (Option Text × Option Provenance) :=
  result.toOption.map fun o ↦ (o.strategy?, o.catalog.map (·.extractedFrom))

private theorem exists_of_reported {result : Except RunFault Outcome}
    {name : Option Text} {source : Option Provenance} (h : reported result = some (name, source)) :
    ∃ o, result = .ok o ∧ o.strategy? = name ∧ o.catalog.map (·.extractedFrom) = source := by
  cases result with
  | error fault => cases h
  | ok o =>
    obtain ⟨rfl, rfl⟩ := Prod.mk.inj (Option.some.inj h)
    exact ⟨o, rfl, rfl, rfl⟩

/-- Without source files the catalog of the built Storybook is kept, and its strategy is named. -/
theorem isAttributed_of_run_beside_index : ∃ o, exchangingRun none = .ok o ∧
    (⟨.build, true, none, none⟩ : ExtractionPlan).IsAttributed (indexedContext none)
      indexedSession o ∧ o.catalog.map (·.extractedFrom) = some .builtStorybook := by
  have hreported : reported (exchangingRun none) =
      some (some Strategy.builtStorybook.name, some .builtStorybook) := by
    decide +kernel
  obtain ⟨o, ho, -, hsource⟩ := exists_of_reported hreported
  exact ⟨o, ho, isAttributed_of_run ho, hsource⟩

/-- With them their catalog is kept, and the strategy for the built Storybook is named. -/
theorem not_namesKept_exchanged : ∃ o, exchangingRun (some ⟨"/", ["p"]⟩) = .ok o ∧
    o.catalog.map (·.extractedFrom) = some .sourceFiles ∧
    o.strategy? = some Strategy.builtStorybook.name ∧ ¬ o.NamesKept := by
  have hreported : reported (exchangingRun (some ⟨"/", ["p"]⟩)) =
      some (some Strategy.builtStorybook.name, some .sourceFiles) := by
    decide +kernel
  obtain ⟨o, ho, hname, hsource⟩ := exists_of_reported hreported
  refine ⟨o, ho, hsource, hname, ?_⟩
  rw [Outcome.NamesKept, hname]
  obtain ⟨catalog, hcatalog, hfrom⟩ := Option.map_eq_some_iff.mp hsource
  rw [hcatalog, Option.map_some, hfrom]
  decide

end ExtractionPlan

end StoryCatalog
