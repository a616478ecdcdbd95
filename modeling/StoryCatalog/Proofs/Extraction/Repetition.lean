import StoryCatalog.Proofs.Extraction.Persistence
import StoryCatalog.Proofs.Extraction.Recurrence

/-!
# Running an extraction again

A run that saves its catalog may be carried out again on the files that it has left. It comes to the
same stories of the same provenance exactly if it has not used an index that stood where the catalog
is saved (`ExtractionPlan.repeats_run_iff`): the snapshot has taken the place of that index.
-/

namespace StoryCatalog

open Work Selection Strategy

variable {c : ExtractionContext} {limit : Option Number} {s s' : Session} {p : Path}
  {catalog : Catalog} {time clock : Binary64} {trouble : Snapshot.Trouble} {store : CatalogStore}

/-- The directories of a context are named without going back by two dots. -/
structure ExtractionContext.IsPlain (fs : FileSystem) (c : ExtractionContext) : Prop where
  sources : ∀ directory, c.sourceDirectory = some directory → fs.IsPlain directory
  output : ∀ directory, c.outputDirectory = some directory → fs.IsPlain directory

/-- The index of a built Storybook is found where a path leads. -/
def ExtractionContext.HasIndexAt (fs : FileSystem) (p : Path) (c : ExtractionContext) : Prop :=
  ∃ q, c.outputDirectory.bind (StoryIndex.find? fs) = some q ∧ fs.namesOf q = fs.namesOf p

namespace Catalog

/-- A catalog that has bytes has bytes at any time. -/
theorem exists_bytes_redated (now : Timestamp) {content : Bytes}
    (h : Snapshot.bytes catalog = .ok content) :
    ∃ content', Snapshot.bytes (catalog.redated now) = .ok content' := by
  obtain ⟨hversion, hcount, hstories⟩ :=
    isWritable_toJson.mp (Snapshot.bytes_ok_iff.mp ⟨content, h⟩)
  exact Snapshot.bytes_ok_iff.mpr (isWritable_toJson.mpr ⟨hversion, hcount, hstories⟩)

end Catalog

namespace ExtractionPlan

variable {plan : ExtractionPlan} {o : Outcome}

/-- A run has used up its index: it has kept the catalog of a built Storybook, or looked for
something richer after it, and the index stood where the catalog is saved. -/
def UsesUp (plan : ExtractionPlan) (c : ExtractionContext) (fs : FileSystem) (p : Path)
    (catalog : Catalog) : Prop :=
  (plan.mode = .build ∨ catalog.extractedFrom = .builtStorybook) ∧ c.HasIndexAt fs p

/-- A run comes to a catalog with the same stories of the same provenance. -/
def Repeats (catalog : Catalog) (result : Except RunFault Outcome × CatalogStore × Session) :
    Prop :=
  ∃ o again, result.1 = .ok o ∧ o.catalog = some again ∧
    again.extractedFrom = catalog.extractedFrom ∧ again.stories = catalog.stories

/-- Settings that leave the file at its default name save the catalog under that name, in the very
directory where the index of a built Storybook is looked for. -/
theorem output_of_settings {settings : Settings} {working : Path} {homes : Homes}
    {serverUrl : Option Text} {requiresSource : Option Bool}
    {usesSource hasParser hasBrowser enhance : Bool} {mode : ExtractionMode}
    (hc : ExtractionContext.ofSettings settings working homes serverUrl requiresSource usesSource
      hasParser hasBrowser = .ok c)
    (hplan : ofSettings settings working homes mode enhance true = .ok plan)
    (hfile : settings.outputFile = Snapshot.defaultName) :
    ∃ directory p, c.outputDirectory = some directory ∧ plan.output = some p ∧
      p.name = Snapshot.defaultName ∧
      ∀ fs : FileSystem, fs.IsPlain directory → fs.IsPlain p := by
  unfold ofSettings Settings.outputPath at hplan
  cases hdirectory : settings.resolvedOutputDirectory working homes with
  | error fault =>
    rw [hdirectory] at hplan
    cases hplan
  | ok directory =>
    rw [hdirectory] at hplan
    cases hplan
    rw [hfile]
    refine ⟨directory, directory.child Snapshot.defaultName, ?_, rfl, Snapshot.name_child _,
      fun fs hplain ↦ Snapshot.isPlain_child hplain (by decide)⟩
    have hyields : Yields (fun c : ExtractionContext ↦ c.outputDirectory = some directory)
        (ExtractionContext.ofSettings settings working homes serverUrl requiresSource usesSource
          hasParser hasBrowser) := by
      unfold ExtractionContext.ofSettings
      rw [hdirectory]
      refine .bind_any fun root ↦ ?_
      dsimp only
      split
      all_goals
        refine .bind_any fun source ↦ .bind (P := (· = directory)) (.ok rfl) ?_
        rintro _ rfl
        split <;> exact .bind_any fun url ↦ .ok rfl
    exact hyields c hc

/-- A run that has come to an outcome with a catalog has selected and saved it. -/
theorem exists_save_of_run (houtput : plan.output = some p)
    (hrun : (plan.run c time clock trouble store s).1 = .ok o)
    (hcatalog : o.catalog = some catalog) :
    ∃ s' files, plan.selected c s = (.ok o, s') ∧
      Snapshot.save s'.files time trouble p catalog = (files, .ok ()) ∧
      (plan.run c time clock trouble store s).2.2.files = files := by
  rcases hselected : plan.selected c s with ⟨error | found, s'⟩
  · rw [run, hselected] at hrun
    cases hrun
  · cases hfound : found.catalog with
    | none =>
      rw [run, hselected] at hrun
      dsimp only at hrun
      rw [hfound] at hrun
      cases hrun
      rw [hfound] at hcatalog
      cases hcatalog
    | some kept =>
      rcases hsave : Snapshot.save s'.files time trouble p kept with ⟨files, fault | _⟩
      · rw [run_of_unsaved hselected hfound houtput clock store hsave] at hrun
        cases hrun
      · rw [run_of_saved hselected hfound houtput clock store hsave] at hrun ⊢
        cases hrun
        rw [hfound] at hcatalog
        cases hcatalog
        exact ⟨s', files, rfl, hsave, rfl⟩

/-- A plan that selects something has a valid context. -/
theorem validate_of_selected (h : plan.selected c s = (.ok o, s')) :
    c.validate s.files = .ok () := by
  cases hvalid : c.validate s.files with
  | ok _ => rfl
  | error error =>
    rw [selected, select, hvalid] at h
    cases h

/-- In development a plan selects from all strategies and looks for nothing richer. -/
theorem selected_dev (hmode : plan.mode = .dev) (s : Session) :
    plan.selected c s = select c plan.limit ExtractionMode.dev.strategies s := by
  rw [selected, hmode]
  rcases select c plan.limit ExtractionMode.dev.strategies s with ⟨_ | outcome, s'⟩ <;> simp

/-! ### Catalogs of other provenance -/

/-- A catalog that is found, if any, is not one of a built Storybook. -/
private def IsOther (found : Option Catalog) : Prop :=
  ∀ catalog, found = some catalog → catalog.extractedFrom ≠ .builtStorybook

private theorem isOther_ofRecords {source : Provenance} (hsource : source ≠ .builtStorybook)
    (now : Timestamp) (records : List StoryRecord) :
    IsOther (some (Catalog.ofRecords source now records)) := by
  rintro catalog ⟨⟩
  rw [Catalog.extractedFrom_ofRecords]
  exact hsource

private theorem isOther_none : IsOther none := by
  rintro catalog ⟨⟩

private theorem ensures_other_sources {fs : FileSystem} {now : Timestamp} :
    Ensures (Session.IsAt fs now) IsOther (extractSources c) := by
  refine Ensures.of_eq (perform_extractSources c) ?_
  rintro t found - hfound catalog rfl
  rw [extractedFrom_sourcesResult hfound]
  decide

private theorem ensures_other_deep : Ensures (fun _ ↦ True) IsOther (extractDeep c) := by
  refine Ensures.bind (.any _) fun found _ ↦ ?_
  split
  · exact .pure isOther_none
  · split
    · exact .pure isOther_none
    · refine Ensures.bind (.any _) fun opened _ ↦ ?_
      split
      · exact Ensures.bind .get fun s _ ↦ .pure (isOther_ofRecords (by decide) _ _)
      · exact .pure isOther_none

private theorem ensures_other_basic : Ensures (fun _ ↦ True) IsOther (extractBasic c) := by
  refine Ensures.bind (.any _) fun found _ ↦ ?_
  split
  · exact .pure isOther_none
  · exact Ensures.bind .get fun s _ ↦ .pure (isOther_ofRecords (by decide) _ _)

/-! ### What is selected again -/

section Again

variable {fs' : FileSystem} (htree : s.files.IsTree) (hplain : c.IsPlain s.files)
  (hname : p.name = Snapshot.defaultName) (hafter : Snapshot.IsAfter p s.files fs')

include htree hplain hname hafter

/-- All strategies recur if a built Storybook does. -/
private theorem recurs_of_mem (now : Timestamp)
    (hbuilt : contribution? c limit builtStorybook s = none ∨ ¬ c.HasIndexAt s.files p)
    {strategy : Strategy} (hmem : strategy ∈ ExtractionMode.dev.strategies) :
    strategy.Recurs c limit s.files fs' s.now now := by
  simp only [ExtractionMode.strategies, List.mem_cons, List.not_mem_nil, or_false] at hmem
  rcases hmem with rfl | rfl | rfl | rfl
  · exact recurs_sourceFiles hafter htree hplain.sources
  · intro t ht
    rw [← contribution?_builtStorybook_congr ht] at hbuilt
    exact recurs_builtStorybook hafter htree hname hplain.output ht.1 hbuilt
  · exact recurs_of_follows rfl (follows_extractDeep c)
  · exact recurs_of_follows rfl (follows_extractBasic c)

omit hname in
/-- Where the source files contribute to a plan that tries them first, they do so again. -/
private theorem selected_again_of_sources (hmode : plan.mode = .dev)
    (hvalid : c.validate s.files = .ok ()) {found : Catalog}
    (hsources : contribution? c plan.limit sourceFiles s = some found) (now : Timestamp) :
    ∃ o' s'', plan.selected c (s.moved fs' now) = (.ok o', s'') ∧ s''.files = fs' ∧
      o'.catalog = some (found.redated now) := by
  have hrecurs : sourceFiles.RecursAt c plan.limit fs' now s :=
    recurs_sourceFiles hafter htree hplain.sources s ⟨rfl, rfl⟩
  have hagain : contribution? c plan.limit sourceFiles (s.moved fs' now) =
      some (found.redated now) := by
    rw [contribution?, hrecurs.recurs.contribution]
    exact congrArg (Option.map (Catalog.redated now)) hsources
  have hvalid' : c.validate (s.moved fs' now).files = .ok () := validate_after hafter hvalid
  have hfirst := tryAll_cons_of_contribution []
    [builtStorybook, runningStorybook, storybookIndex] (behaviour_sourceFiles c _ _).1 hagain
  have hselected := selected_dev (c := c) hmode (s.moved fs' now)
  rw [select, hvalid'] at hselected
  exact ⟨_, _, hselected.trans hfirst, rfl, rfl⟩

/-- What a plan selects again, after its first catalog was saved. -/
theorem selected_again (hselected : plan.selected c s = (.ok o, s'))
    (hcatalog : o.catalog = some catalog) (hkept : ¬ UsesUp plan c s.files p catalog)
    (now : Timestamp) :
    ∃ o' s'', plan.selected c (s.moved fs' now) = (.ok o', s'') ∧ s''.files = fs' ∧
      o'.catalog = some (catalog.redated now) := by
  have hvalid := validate_of_selected hselected
  by_cases hbuilt : contribution? c plan.limit builtStorybook s = none ∨ ¬ c.HasIndexAt s.files p
  · have hall : ∀ strategy ∈ ExtractionMode.dev.strategies,
        strategy.Recurs c plan.limit s.files fs' s.now now :=
      fun strategy hmem ↦ recurs_of_mem htree hplain hname hafter now hbuilt hmem
    obtain ⟨hsession, o', ho', hagain⟩ := plan.selected_recurs (validate_after hafter) hall
      ⟨rfl, rfl⟩ o (by rw [hselected])
    refine ⟨o', _, Prod.ext ho' rfl, ?_, ?_⟩
    · exact congrArg Session.files hsession
    · rw [hagain, hcatalog, Option.map_some]
  · -- The index would be used up, so it was not needed: the source files came first.
    obtain ⟨hsome, hindex⟩ := not_or.mp hbuilt
    obtain ⟨built, hcontribution⟩ := Option.ne_none_iff_exists'.mp hsome
    have hmode : plan.mode = .dev := by
      cases hmode : plan.mode with
      | dev => rfl
      | build => exact absurd ⟨.inl hmode, not_not.mp hindex⟩ hkept
    obtain ⟨attempts, hdev⟩ := select_dev plan.limit hvalid hcontribution
    rw [selected_dev hmode, hdev] at hselected
    cases hselected
    dsimp only at hcatalog
    cases hsources : contribution? c plan.limit sourceFiles s with
    | none =>
      rw [hsources, Option.getD_none] at hcatalog
      cases hcatalog
      have hfrom := (extractedFrom_of_builtStorybook hcontribution).2
      exact absurd ⟨.inr hfrom, not_not.mp hindex⟩ hkept
    | some found =>
      rw [hsources, Option.getD_some] at hcatalog
      cases hcatalog
      exact selected_again_of_sources htree hplain hafter hmode hvalid hsources now

/-- After a plan has used up its index, no built Storybook contributes. -/
private theorem contribution?_usedUp (hindex : c.HasIndexAt s.files p) (now : Timestamp) :
    contribution? c limit builtStorybook (s.moved fs' now) = none := by
  rw [contribution?_after hafter htree hname hplain.output rfl]
  exact if_pos hindex

/-- A built Storybook whose index is used up gives no catalog. -/
private theorem provides_usedUp (hindex : c.HasIndexAt s.files p) (now : Timestamp) :
    builtStorybook.Provides (Session.IsAt fs' now) (·.extractedFrom ≠ .builtStorybook) c := by
  refine Ensures.of_eq (r := fun t ↦ .ok (builtResult c t)) (perform_extractBuilt c) ?_
  rintro t found ht hfound catalog rfl
  have hnone : builtResult c (s.moved fs' now) = none := by
    rw [hafter.builtResult_eq htree hname hplain.output rfl]
    exact if_pos hindex
  have hresult : builtResult c t = builtResult c (s.moved fs' now) := by
    rw [builtResult, builtResult, ht.1, ht.2]
    rfl
  rw [hresult, hnone] at hfound
  cases hfound

/-- What a plan that has used up its index selects again is no catalog of a built Storybook, and
nothing at all if no other strategy is tried. -/
theorem selected_usedUp (hvalid : c.validate s.files = .ok ()) (hindex : c.HasIndexAt s.files p)
    (now : Timestamp) {o' : Outcome} {s'' : Session}
    (hselected : plan.selected c (s.moved fs' now) = (.ok o', s''))
    {again : Catalog} (hagain : o'.catalog = some again) :
    plan.mode = .dev ∧ again.extractedFrom ≠ .builtStorybook := by
  have hbuilt : contribution? c plan.limit builtStorybook (s.moved fs' now) = none :=
    contribution?_usedUp htree hplain hname hafter hindex now
  cases hmode : plan.mode with
  | build =>
    obtain ⟨hsession, -, hconfig⟩ := behaviour_builtStorybook c plan.limit (s.moved fs' now)
    obtain ⟨attempt, -, -, hnext⟩ := tryAll_cons_of_none [] [] hsession hbuilt hconfig
    have hvalid' : c.validate (s.moved fs' now).files = .ok () := validate_after hafter hvalid
    have hselect : select c plan.limit ExtractionMode.build.strategies (s.moved fs' now) =
        (.ok ⟨none, [attempt]⟩, s.moved fs' now) := by
      rw [select, hvalid']
      exact hnext
    rw [selected, hmode, hselect] at hselected
    simp only [Outcome.hasSucceeded, Option.isSome_none, Bool.and_false, Bool.false_eq_true,
      if_false] at hselected
    cases hselected
    cases hagain
  | dev =>
    refine ⟨rfl, ?_⟩
    have hprovides : ∀ strategy ∈ ExtractionMode.dev.strategies,
        strategy.Provides (Session.IsAt fs' now) (·.extractedFrom ≠ .builtStorybook) c := by
      intro strategy hmem
      simp only [ExtractionMode.strategies, List.mem_cons, List.not_mem_nil, or_false] at hmem
      rcases hmem with rfl | rfl | rfl | rfl
      · exact ensures_other_sources
      · exact provides_usedUp htree hplain hname hafter hindex now
      · exact (follows_extractDeep c).ensures ensures_other_deep
      · exact (follows_extractBasic c).ensures ensures_other_basic
    have hkeeps := Selection.select_keeps plan.limit (fun _ _ h ↦ h) hprovides
      (s := s.moved fs' now) ⟨rfl, rfl⟩
    rw [selected_dev hmode] at hselected
    rw [hselected] at hkeeps
    exact hkeeps.2 o' again rfl hagain

end Again

/-- What a run leaves when it has saved its catalog under the default name. -/
theorem exists_isAfter_of_run (hsound : s.IsSound s.files) (houtput : plan.output = some p)
    (hp : s.files.IsPlain p) (hname : p.name = Snapshot.defaultName)
    (hrun : (plan.run c time clock trouble store s).1 = .ok o)
    (hcatalog : o.catalog = some catalog) :
    ∃ s' files, plan.selected c s = (.ok o, s') ∧
      (plan.run c time clock trouble store s).2.2.files = files ∧
      Snapshot.save s.files time trouble p catalog = (files, .ok ()) ∧
      Snapshot.IsAfter p s.files files := by
  obtain ⟨s', files, hselected, hsave, hfiles⟩ := exists_save_of_run houtput hrun hcatalog
  obtain ⟨hsound', hrestorable⟩ := plan.selected_isRestorable c hsound
  rw [hselected] at hsound' hrestorable
  rw [hsound'.files] at hsave
  exact ⟨s', files, hselected, hfiles, hsave,
    Snapshot.isAfter_of_save hp hname (hrestorable o catalog rfl hcatalog) hsave⟩

/-- A run that has used up its index comes to no catalog of a built Storybook when it is carried out
again, and to none at all if no other strategy is tried. -/
theorem run_usedUp (htree : s.files.IsTree) (hsound : s.IsSound s.files)
    (hplain : c.IsPlain s.files) (houtput : plan.output = some p) (hp : s.files.IsPlain p)
    (hname : p.name = Snapshot.defaultName)
    (hrun : (plan.run c time clock trouble store s).1 = .ok o) (hcatalog : o.catalog = some catalog)
    (hindex : c.HasIndexAt s.files p) (time' clock' : Binary64) (store' : CatalogStore)
    (now : Timestamp) {o' : Outcome} {again : Catalog}
    (hrun' : (plan.run c time' clock' .none store'
      (s.moved (plan.run c time clock trouble store s).2.2.files now)).1 = .ok o')
    (hagain : o'.catalog = some again) :
    plan.mode = .dev ∧ again.extractedFrom ≠ .builtStorybook := by
  obtain ⟨s', files, hselected, hfiles, -, hafter⟩ :=
    exists_isAfter_of_run hsound houtput hp hname hrun hcatalog
  rw [hfiles] at hrun'
  obtain ⟨s'', _, hselected', -⟩ := exists_save_of_run houtput hrun' hagain
  exact selected_usedUp htree hplain hname hafter (validate_of_selected hselected) hindex now
    hselected' hagain

/-- A run that has saved its catalog under the default name comes to the same stories of the same
provenance when it is carried out again on the files it has left, unless it has used up its
index. -/
theorem repeats_run_iff (htree : s.files.IsTree) (hsound : s.IsSound s.files)
    (hplain : c.IsPlain s.files) (houtput : plan.output = some p) (hp : s.files.IsPlain p)
    (hname : p.name = Snapshot.defaultName)
    (hrun : (plan.run c time clock trouble store s).1 = .ok o) (hcatalog : o.catalog = some catalog)
    (time' clock' : Binary64) (store' : CatalogStore) (now : Timestamp) :
    Repeats catalog (plan.run c time' clock' .none store'
        (s.moved (plan.run c time clock trouble store s).2.2.files now)) ↔
      ¬ UsesUp plan c s.files p catalog := by
  constructor
  · rintro ⟨o', again, hrun', hagain, hfrom, -⟩ ⟨hused, hindex⟩
    obtain ⟨hmode, hother⟩ := run_usedUp htree hsound hplain houtput hp hname hrun hcatalog hindex
      time' clock' store' now hrun' hagain
    rcases hused with hbuild | hbuilt
    · rw [hmode] at hbuild
      cases hbuild
    · exact hother (hfrom.trans hbuilt)
  · intro hkept
    obtain ⟨s', files, hselected, hfiles, hsave, hafter⟩ :=
      exists_isAfter_of_run hsound houtput hp hname hrun hcatalog
    obtain ⟨o', s'', hselected', hs'', hagain⟩ :=
      selected_again htree hplain hname hafter hselected hcatalog hkept now
    obtain ⟨names, content, hbytes, hlocate, hnode, -⟩ := Snapshot.save_ok hsave
    obtain ⟨content', hbytes'⟩ := Catalog.exists_bytes_redated now hbytes
    rw [← hs''] at hlocate hnode
    obtain ⟨files', hsave'⟩ := Snapshot.save_over (Snapshot.ne_nil_of_name hname) hlocate hnode
      hbytes' time'
    have hrun' := run_of_saved hselected' hagain houtput clock' store' hsave'
    rw [hfiles]
    exact ⟨o', catalog.redated now, congrArg Prod.fst hrun', hagain, rfl, rfl⟩

/-! ### A built Storybook with an older index -/

/-- A project with a built Storybook, whose index stands in a file of a given name. -/
def builtProject (name : Text) : Session where
  files :=
    { working := ⟨"/", []⟩
      nodes := [(["p"], .directory), (["p", "out"], .directory),
        (["p", "out", name],
          .file ((Text.ofString
            ("\x7b\"v\":3,\"stories\":" ++
              "\x7b\"a--b\":\x7b\"kind\":\"A\",\"story\":\"B\"\x7d\x7d\x7d")).flatMap
              Utf8.encodeCodePoint) (.ofInt 0))] }
  now := .secondOfJanuary
  server := .ofServer fun _ _ ↦ .timedOut
  requests := []
  page := none
  calls := []
  liveIndex := .unknown
  remaining := none

/-- The context of the project. -/
def builtContext : ExtractionContext where
  projectRoot := ⟨"/", ["p"]⟩
  sourceDirectory := none
  outputDirectory := some ⟨"/", ["p", "out"]⟩
  serverUrl := none
  hasParser := true
  hasBrowser := false
  pageLimit := .int 30
  storyLimit := .int 5
  indexLimit := .int 10
  headless := true
  requiresSource := false

/-- Where the plan saves its catalog. -/
def besidePath : Path := ⟨"/", ["p", "out", "stories.json"]⟩

/-- A plan for the built Storybook that saves its catalog beside the index. -/
def besidePlan : ExtractionPlan :=
  ⟨.build, false, some besidePath, none⟩

/-- Whether a run comes to a catalog. -/
private def hasAny (result : Except RunFault Outcome × CatalogStore × Session) : Bool :=
  match result.1 with
  | .ok o => o.catalog.isSome
  | .error _ => false

private theorem exists_of_hasAny {result : Except RunFault Outcome × CatalogStore × Session}
    (h : hasAny result = true) : ∃ o catalog, result.1 = .ok o ∧ o.catalog = some catalog := by
  unfold hasAny at h
  split at h
  · next o ho =>
    obtain ⟨catalog, hcatalog⟩ := Option.isSome_iff_exists.mp h
    exact ⟨o, catalog, ho, hcatalog⟩
  · cases h

/-- Whatever name its index has, the project is one that runs can be carried out in again. -/
private theorem isTree_builtProject {name : Text} (hname : (".." : Text) ≠ name) :
    (builtProject name).files.IsTree := by
  intro entry hentry
  simp only [builtProject, List.mem_cons, List.not_mem_nil, or_false] at hentry
  rcases hentry with rfl | rfl | rfl
  · exact ⟨by decide, rfl⟩
  · exact ⟨by decide, rfl⟩
  · refine ⟨?_, rfl⟩
    simp only [List.mem_cons, List.not_mem_nil, or_false, not_or]
    exact ⟨by decide, by decide, hname⟩

private theorem isSound_builtProject (name : Text) :
    (builtProject name).IsSound (builtProject name).files :=
  Session.isSound_of_unknown rfl (by rintro page ⟨⟩)

private theorem isPlain_besidePath (name : Text) :
    builtContext.IsPlain (builtProject name).files ∧
      (builtProject name).files.IsPlain besidePath := by
  refine ⟨⟨?_, ?_⟩, ?_⟩
  · rintro directory ⟨⟩
  · rintro directory ⟨⟩
    change (".." : Text) ∉ (["p", "out"] : List Text)
    decide
  · change (".." : Text) ∉ (["p", "out", "stories.json"] : List Text)
    decide

/-- With an index under its current name the run can be repeated. -/
theorem repeats_run_beside_index : ∃ o catalog,
    (besidePlan.run builtContext (.ofInt 0) (.ofInt 0) .none .empty (builtProject "index.json")).1 =
        .ok o ∧ o.catalog = some catalog ∧
      ∀ now, Repeats catalog (besidePlan.run builtContext (.ofInt 0) (.ofInt 0) .none .empty
        ((builtProject "index.json").moved (besidePlan.run builtContext (.ofInt 0) (.ofInt 0) .none
          .empty (builtProject "index.json")).2.2.files now)) := by
  have hfound : hasAny (besidePlan.run builtContext (.ofInt 0) (.ofInt 0) .none .empty
      (builtProject "index.json")) = true := by
    decide +kernel
  obtain ⟨o, catalog, ho, hcatalog⟩ := exists_of_hasAny hfound
  refine ⟨o, catalog, ho, hcatalog, ?_⟩
  have hindex : builtContext.outputDirectory.bind
      (StoryIndex.find? (builtProject "index.json").files) =
        some ⟨"/", ["p", "out", "index.json"]⟩ := by decide +kernel
  obtain ⟨hplain, hp⟩ := isPlain_besidePath "index.json"
  intro now
  refine (@repeats_run_iff _ _ _ _ (.ofInt 0) (.ofInt 0) .none .empty besidePlan _
    (isTree_builtProject (by decide)) (isSound_builtProject _) hplain rfl hp rfl ho hcatalog
    (.ofInt 0) (.ofInt 0) .empty now).mpr ?_
  rintro ⟨-, q, hq, hnames⟩
  rw [hindex] at hq
  cases hq
  exact absurd hnames (by decide)

/-- With an index under its older name, which is that of the snapshot too, the run has a catalog and
has none when it is carried out again. -/
theorem not_repeats_run_over_index : ∃ o catalog,
    (besidePlan.run builtContext (.ofInt 0) (.ofInt 0) .none .empty
        (builtProject "stories.json")).1 = .ok o ∧ o.catalog = some catalog ∧
      ∀ now, ¬ Repeats catalog (besidePlan.run builtContext (.ofInt 0) (.ofInt 0) .none .empty
        ((builtProject "stories.json").moved
          (besidePlan.run builtContext (.ofInt 0) (.ofInt 0) .none .empty
            (builtProject "stories.json")).2.2.files now)) := by
  have hfound : hasAny (besidePlan.run builtContext (.ofInt 0) (.ofInt 0) .none .empty
      (builtProject "stories.json")) = true := by
    decide +kernel
  obtain ⟨o, catalog, ho, hcatalog⟩ := exists_of_hasAny hfound
  refine ⟨o, catalog, ho, hcatalog, ?_⟩
  have hindex : builtContext.outputDirectory.bind
      (StoryIndex.find? (builtProject "stories.json").files) = some besidePath := by
    decide +kernel
  obtain ⟨hplain, hp⟩ := isPlain_besidePath "stories.json"
  rintro now ⟨o', again, hrun', hagain, -⟩
  obtain ⟨hmode, -⟩ := @run_usedUp _ _ _ _ (.ofInt 0) (.ofInt 0) .none .empty besidePlan _
    (isTree_builtProject (by decide)) (isSound_builtProject _) hplain rfl hp rfl ho hcatalog
    ⟨_, hindex, rfl⟩ (.ofInt 0) (.ofInt 0) .empty now o' again hrun' hagain
  cases hmode

end ExtractionPlan

end StoryCatalog
