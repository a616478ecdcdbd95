import StoryCatalog.Extraction.Run
import StoryCatalog.Proofs.Extraction.Selection
import StoryCatalog.Proofs.Timestamp.RoundTrip

/-!
# Enhancing the catalog of a built Storybook

After a run for a built Storybook all strategies are tried for something richer. The one for a built
Storybook is among them and stands before the one for a running Storybook, so it ends the second
selection whenever the source files contribute nothing.
-/

namespace StoryCatalog.ExtractionPlan

open Selection

variable {plan : ExtractionPlan} {c : ExtractionContext} {s : Session} {built : Catalog}

/-- What enhancing promises of the catalog that is kept. Where only a running Storybook contributes
something richer, the catalog is the running Storybook's; and that of the built Storybook is kept
only where nothing richer is contributed. -/
def IsUpgraded (c : ExtractionContext) (limit : Option Number) (s : Session)
    (kept : Option Catalog) : Prop :=
  (contribution? c limit .sourceFiles s = none →
    (contribution? c limit .runningStorybook s).isSome = true →
    kept.map (·.extractedFrom) = some .runningStorybook) ∧
  (kept.map (·.extractedFrom) = some .builtStorybook →
    contribution? c limit .sourceFiles s = none ∧
      contribution? c limit .runningStorybook s = none)

/-- The selection for a built Storybook. -/
theorem select_build (limit : Option Number) (hvalid : c.validate s.files = .ok ())
    (hbuilt : contribution? c limit .builtStorybook s = some built) :
    ∃ attempts, select c limit ExtractionMode.build.strategies s =
      (.ok ⟨some built, attempts⟩, s) := by
  rw [select, hvalid]
  exact ⟨_, tryAll_cons_of_contribution [] []
    (Strategy.behaviour_builtStorybook c limit s).1 hbuilt⟩

/-- The selection among all strategies where there is a built Storybook: what the source files
contribute, or else the built Storybook. -/
theorem select_dev (limit : Option Number) (hvalid : c.validate s.files = .ok ())
    (hbuilt : contribution? c limit .builtStorybook s = some built) :
    ∃ attempts, select c limit ExtractionMode.dev.strategies s =
      (.ok ⟨some ((contribution? c limit .sourceFiles s).getD built), attempts⟩, s) := by
  obtain ⟨hsession, -, hconfig⟩ := Strategy.behaviour_sourceFiles c limit s
  rw [select, hvalid]
  cases hsources : contribution? c limit .sourceFiles s with
  | some catalog =>
    exact ⟨_, tryAll_cons_of_contribution [] [.builtStorybook, .runningStorybook, .storybookIndex]
      hsession hsources⟩
  | none =>
    obtain ⟨attempt, -, -, hnext⟩ := tryAll_cons_of_none []
      [.builtStorybook, .runningStorybook, .storybookIndex] hsession hsources hconfig
    have hlast := tryAll_cons_of_contribution ([] ++ [attempt]) [.runningStorybook, .storybookIndex]
      (Strategy.behaviour_builtStorybook c limit s).1 hbuilt
    exact ⟨_, hnext.trans hlast⟩

/-- The outcome of an enhanced selection keeps what the source files contribute, or else the catalog
of the built Storybook. Nothing is asked of a server or a browser. -/
theorem selected_enhanced (hmode : plan.mode = .build) (henhance : plan.enhance = true)
    (hvalid : c.validate s.files = .ok ())
    (hbuilt : contribution? c plan.limit .builtStorybook s = some built) :
    ∃ attempts, plan.selected c s =
      (.ok ⟨some ((contribution? c plan.limit .sourceFiles s).getD built), attempts⟩, s) := by
  obtain ⟨first, hfirst⟩ := select_build plan.limit hvalid hbuilt
  obtain ⟨second, hsecond⟩ := select_dev plan.limit hvalid hbuilt
  have hselected : plan.selected c s = enhanced c plan.limit ⟨some built, first⟩ s := by
    rw [selected, hmode, hfirst]
    simp [henhance, Outcome.hasSucceeded]
  rw [hselected, enhanced, hsecond]
  cases hsources : contribution? c plan.limit .sourceFiles s with
  | some catalog =>
    have hdeep : catalog.extractedFrom.isDeep = true := by
      rw [(Strategy.extractedFrom_of_sourceFiles hsources).2]
      rfl
    exact ⟨_, if_pos hdeep⟩
  | none =>
    have hdeep : ¬ built.extractedFrom.isDeep = true := by
      rw [(Strategy.extractedFrom_of_builtStorybook hbuilt).2]
      decide
    exact ⟨_, if_neg hdeep⟩

/-- A run whose selection keeps a catalog comes to that outcome, unless the catalog is not saved. -/
theorem run_of_selected {o : Outcome} {catalog : Catalog} {s' : Session}
    (hselected : plan.selected c s = (.ok o, s')) (hcatalog : o.catalog = some catalog)
    (time clock : Binary64) (trouble : Snapshot.Trouble) (store : CatalogStore) :
    (plan.run c time clock trouble store s).1 = .ok o ∨
      plan.output ≠ none ∧
        ∃ fault, (plan.run c time clock trouble store s).1 = .error (.save fault) := by
  rw [run, hselected]
  dsimp only
  rw [hcatalog]
  dsimp only
  cases houtput : plan.output with
  | none => exact .inl rfl
  | some p =>
    rcases saveAt (some p) time trouble catalog s'.files with ⟨files, _ | _⟩
    · exact .inr ⟨by simp, _, rfl⟩
    · exact .inl rfl

/-- An enhanced run with a built Storybook keeps the promise of enhancing exactly if the source
files contribute a catalog or a running Storybook would contribute none: it is never asked. -/
theorem isUpgraded_run_iff (hmode : plan.mode = .build) (henhance : plan.enhance = true)
    (hvalid : c.validate s.files = .ok ())
    (hbuilt : contribution? c plan.limit .builtStorybook s = some built)
    (time clock : Binary64) (trouble : Snapshot.Trouble) (store : CatalogStore) :
    ∃ o, plan.selected c s = (.ok o, s) ∧
      ((plan.run c time clock trouble store s).1 = .ok o ∨
        plan.output ≠ none ∧
          ∃ fault, (plan.run c time clock trouble store s).1 = .error (.save fault)) ∧
      o.catalog = some ((contribution? c plan.limit .sourceFiles s).getD built) ∧
      (IsUpgraded c plan.limit s o.catalog ↔
        (contribution? c plan.limit .sourceFiles s).isSome = true ∨
          contribution? c plan.limit .runningStorybook s = none) := by
  obtain ⟨attempts, hselected⟩ := selected_enhanced hmode henhance hvalid hbuilt
  refine ⟨_, hselected, run_of_selected hselected rfl time clock trouble store, rfl, ?_⟩
  unfold IsUpgraded
  cases hsources : contribution? c plan.limit .sourceFiles s with
  | some catalog =>
    have hfrom := (Strategy.extractedFrom_of_sourceFiles hsources).2
    simp [hfrom]
  | none =>
    have hfrom := (Strategy.extractedFrom_of_builtStorybook hbuilt).2
    simp only [Option.getD_none, Option.map_some, hfrom]
    cases contribution? c plan.limit .runningStorybook s <;> simp

/-! ### A project with a built and a running Storybook -/

/-- The bytes of an index with one story. -/
def oneStory : Bytes :=
  (Text.ofString "\x7b\"entries\":\x7b\"a\":\x7b\x7d\x7d\x7d").flatMap Utf8.encodeCodePoint

/-- A project with a built Storybook and a story file, and a running Storybook whose story tells
something. -/
def bothStorybooks : Session where
  files :=
    { working := ⟨"/", []⟩
      nodes := [(["p"], .directory), (["p", "out"], .directory), (["p", "src"], .directory),
        (["p", "out", "index.json"], .file oneStory (.ofInt 0)),
        (["p", "src", "A.stories.ts"],
          .file ((Text.ofString "export const A=1").flatMap Utf8.encodeCodePoint) (.ofInt 0))] }
  now := .secondOfJanuary
  server := .ofServer fun _ _ ↦ .answered ⟨200, [], oneStory⟩
  requests := []
  page := some (.ofPage ⟨true, true, fun _ ↦ .value (.object [])⟩)
  calls := []
  liveIndex := .unknown
  remaining := none

/-- The context of the project, with or without its story files. -/
def projectContext (sources : Option Path) : ExtractionContext where
  projectRoot := ⟨"/", ["p"]⟩
  sourceDirectory := sources
  outputDirectory := some ⟨"/", ["p", "out"]⟩
  serverUrl := some "http://h"
  hasParser := true
  hasBrowser := true
  pageLimit := .int 30
  storyLimit := .int 5
  indexLimit := .int 10
  headless := true
  requiresSource := false

/-- A run for a built Storybook that looks for something richer and saves nothing. -/
def enhancing : ExtractionPlan := ⟨.build, true, none, none⟩

/-- With the story files the catalog is upgraded. -/
theorem isUpgraded_run_with_sources :
    ∃ o, (enhancing.run (projectContext (some ⟨"/", ["p", "src"]⟩)) (.ofInt 0) (.ofInt 0) .none
        .empty bothStorybooks).1 = .ok o ∧
      IsUpgraded (projectContext (some ⟨"/", ["p", "src"]⟩)) none bothStorybooks o.catalog := by
  have hsome : (contribution? (projectContext (some ⟨"/", ["p", "src"]⟩)) none .builtStorybook
      bothStorybooks).isSome = true := by decide +kernel
  obtain ⟨built, hbuilt⟩ := Option.isSome_iff_exists.mp hsome
  obtain ⟨o, -, hrun, -, hiff⟩ := @isUpgraded_run_iff enhancing _ _ _ rfl rfl rfl hbuilt
    (.ofInt 0) (.ofInt 0) .none .empty
  refine ⟨o, ?_, hiff.mpr (.inl ?_)⟩
  · rcases hrun with hrun | ⟨houtput, -⟩
    · exact hrun
    · exact absurd rfl houtput
  · decide +kernel

/-- Without them the running Storybook would contribute a catalog, and that of the built one is
kept. -/
theorem built_kept_beside_running :
    contribution? (projectContext none) none .sourceFiles bothStorybooks = none ∧
      (contribution? (projectContext none) none .runningStorybook bothStorybooks).isSome = true ∧
      ∃ o, (enhancing.run (projectContext none) (.ofInt 0) (.ofInt 0) .none .empty
          bothStorybooks).1 = .ok o ∧
        o.catalog.map (·.extractedFrom) = some .builtStorybook ∧
        ¬ IsUpgraded (projectContext none) none bothStorybooks o.catalog := by
  have hsome : (contribution? (projectContext none) none .builtStorybook bothStorybooks).isSome =
      true := by decide +kernel
  have hrunning : (contribution? (projectContext none) none .runningStorybook
      bothStorybooks).isSome = true := by decide +kernel
  obtain ⟨built, hbuilt⟩ := Option.isSome_iff_exists.mp hsome
  obtain ⟨attempts, hselected⟩ := @selected_enhanced enhancing _ _ _ rfl rfl rfl hbuilt
  have hfrom := (Strategy.extractedFrom_of_builtStorybook hbuilt).2
  refine ⟨rfl, hrunning, ⟨some built, attempts⟩, ?_, congrArg some hfrom, ?_⟩
  · rcases run_of_selected hselected rfl (.ofInt 0) (.ofInt 0) .none .empty with hrun | ⟨h, -⟩
    · exact hrun
    · exact absurd rfl h
  · intro h
    have hnone := (h.2 (congrArg some hfrom)).2
    rw [hnone] at hrunning
    cases hrunning

end StoryCatalog.ExtractionPlan
