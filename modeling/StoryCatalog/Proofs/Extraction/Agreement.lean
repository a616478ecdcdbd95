import StoryCatalog.Catalog.Loader
import StoryCatalog.Proofs.Extraction.Outcome
import StoryCatalog.Proofs.Extraction.Persistence

/-!
# Agreement of store and file

A run that saves either ends with the store, the file and every fresh loader holding one catalog, or
leaves the store and all files as they were (`ExtractionPlan.run_agrees_or_untouched`). What was
written is read back, so the file does not merely hold bytes of the catalog.
-/

namespace StoryCatalog

namespace CatalogLoader

variable {fs : FileSystem} {p root : Path} {c : Catalog} {settings : Settings}
  {working : Path} {homes : Homes}

/-- A loader looks first at the place where its settings save. -/
theorem ofSettings_of_outputPath (hroot : settings.resolvedProjectRoot working homes = .ok root)
    (houtput : settings.outputPath working homes = .ok p) :
    ∃ loader rest, ofSettings settings working homes = .ok loader ∧ loader.paths = p :: rest := by
  unfold Settings.outputPath at houtput
  cases hdirectory : settings.resolvedOutputDirectory working homes with
  | error fault =>
    rw [hdirectory] at houtput
    cases houtput
  | ok directory =>
    rw [hdirectory] at houtput
    cases houtput
    have hloader : ofSettings settings working homes =
        .ok ⟨candidatePaths root directory settings.outputFile, settings.cacheTtl⟩ := by
      rw [ofSettings, hroot, hdirectory]
    exact ⟨_, _, hloader, rfl⟩

/-- A fresh loader loads the catalog of the first place. -/
theorem load_empty {l : CatalogLoader} {rest : List Path} (hpaths : l.paths = p :: rest)
    {now : Timestamp} (hread : Snapshot.read? fs now p = some c) (clock : Binary64) :
    l.load fs clock now .empty = (some c, CatalogStore.empty.replace fs clock c (some p)) := by
  have hfirst : firstReadable? fs now l.paths = some (p, c) := by
    rw [firstReadable?, hpaths, List.findSome?_cons, hread]
    rfl
  change l.reload fs clock now .empty = _
  rw [reload, hfirst]

end CatalogLoader

namespace ExtractionPlan

open FileSystem

variable {plan : ExtractionPlan} {c : ExtractionContext} {s : Session} {p : Path}

/-- One catalog is held in the store as that of a path, read from the file there, and loaded by
every fresh loader of settings that save there and have a root of the project. -/
structure AgreesOn (p : Path) (catalog : Catalog) (store : CatalogStore) (fs : FileSystem) :
    Prop where
  current : store.get? = some catalog
  source : store.source? = some p
  file : ∀ now, Snapshot.read? fs now p = some catalog
  loaded : ∀ (settings : Settings) (working : Path) (homes : Homes) (root : Path),
    settings.resolvedProjectRoot working homes = .ok root →
    settings.outputPath working homes = .ok p →
    ∃ loader, CatalogLoader.ofSettings settings working homes = .ok loader ∧
      ∀ clock now, (loader.load fs clock now .empty).1 = some catalog

/-- A store that has just taken in a catalog agrees with a file that gives it back. -/
theorem agreesOn_replace {fs : FileSystem} {catalog : Catalog}
    (hread : ∀ now, Snapshot.read? fs now p = some catalog) (store : CatalogStore)
    (clock : Binary64) : AgreesOn p catalog (store.replace fs clock catalog (some p)) fs where
  current := rfl
  source := rfl
  file := hread
  loaded := by
    intro settings working homes root hroot houtput
    obtain ⟨loader, rest, hloader, hpaths⟩ := CatalogLoader.ofSettings_of_outputPath hroot houtput
    refine ⟨loader, hloader, ?_⟩
    intro clock now
    rw [CatalogLoader.load_empty hpaths (hread now)]

/-- A run has a catalog on which store, file and loaders agree, and has left every other name as it
was. New directories are all that there may be besides. -/
def Agrees (p : Path) (fs : FileSystem)
    (result : Except RunFault Outcome × CatalogStore × Session) : Prop :=
  ∃ o catalog names, result.1 = .ok o ∧ o.catalog = some catalog ∧
    AgreesOn p catalog result.2.1 result.2.2.files ∧ result.2.2.files.locate p = .ok names ∧
    ∀ other, other ≠ names → AgreesAt fs result.2.2.files other

/-- A run has no catalog, and has changed neither the store nor a file. -/
structure Untouched (store : CatalogStore) (fs : FileSystem)
    (result : Except RunFault Outcome × CatalogStore × Session) : Prop where
  outcome : ∀ o, result.1 = .ok o → o.catalog = none
  store_eq : result.2.1 = store
  grows : Grows fs result.2.2.files
  read_eq : ∀ p content, fs.read p = .ok content → result.2.2.files.read p = .ok content

private theorem untouched_of_files_eq {result : Except RunFault Outcome} {store : CatalogStore}
    {fs : FileSystem} {s' : Session} (hfiles : s'.files = fs)
    (houtcome : ∀ o, result = .ok o → o.catalog = none) :
    Untouched store fs (result, store, s') where
  outcome := houtcome
  store_eq := rfl
  grows := by
    rw [hfiles]
    exact grows_refl fs
  read_eq := by
    rw [hfiles]
    exact fun _ _ ↦ id

/-- A run with a path either agrees on its catalog everywhere or leaves the store and all files as
they were, wherever it fails. -/
theorem run_agrees_or_untouched (hs : s.IsSound s.files) (houtput : plan.output = some p)
    (c : ExtractionContext) (time clock : Binary64) (trouble : Snapshot.Trouble)
    (store : CatalogStore) :
    Agrees p s.files (plan.run c time clock trouble store s) ∨
      Untouched store s.files (plan.run c time clock trouble store s) := by
  obtain ⟨hsound, hrestorable⟩ := plan.selected_isRestorable c hs
  rcases hselected : plan.selected c s with ⟨error | o, s'⟩
  · rw [hselected] at hsound
    right
    rw [run, hselected]
    exact untouched_of_files_eq hsound.files (by rintro o ⟨⟩)
  · rw [hselected] at hsound hrestorable
    cases hcatalog : o.catalog with
    | none =>
      right
      rw [run, hselected]
      dsimp only
      rw [hcatalog]
      refine untouched_of_files_eq hsound.files ?_
      rintro _ ⟨⟩
      exact hcatalog
    | some catalog =>
      have hfiles : s'.files = s.files := hsound.files
      rcases hsave : Snapshot.save s'.files time trouble p catalog with ⟨files, fault | _⟩
      · right
        rw [run_of_unsaved hselected hcatalog houtput clock store hsave]
        have hgrows := (Snapshot.save_error hsave).2
        rw [hfiles] at hgrows
        exact ⟨by rintro o ⟨⟩, rfl, hgrows, fun q content ↦ hgrows.read_ok⟩
      · left
        rw [run_of_saved hselected hcatalog houtput clock store hsave]
        obtain ⟨names, content, hbytes, hlocate, hnode, hothers⟩ := Snapshot.save_ok hsave
        rw [hfiles] at hothers
        have hread := Snapshot.read?_of_bytes (hrestorable o catalog rfl hcatalog) hbytes hlocate
          hnode
        have hagrees := agreesOn_replace hread store clock
        exact ⟨o, catalog, names, rfl, hcatalog, hagrees, hlocate, hothers⟩

/-! ### A run that saves one story -/

/-- A plan that saves the catalog in another directory. -/
def savingPlan : ExtractionPlan := ⟨.dev, false, some ⟨"/", ["out", "stories.json"]⟩, none⟩

/-- A session whose only file is one with a story. -/
def storySession : Session := StoryFile.sessionOfOne "export const A=1"

/-- The run of the plan, with an empty store. -/
def runOfStory : Except RunFault Outcome × CatalogStore × Session :=
  savingPlan.run StoryFile.contextOfOne (.ofInt 0) (.ofInt 0) .none .empty storySession

/-- Whether a run has a catalog. -/
def hasCatalog (result : Except RunFault Outcome) : Bool :=
  match result with
  | .ok o => o.catalog.isSome
  | .error _ => false

private theorem not_untouched_of_hasCatalog {store : CatalogStore} {fs : FileSystem}
    {result : Except RunFault Outcome × CatalogStore × Session} (h : hasCatalog result.1 = true) :
    ¬ Untouched store fs result := by
  intro huntouched
  unfold hasCatalog at h
  split at h
  · next o ho =>
    rw [huntouched.outcome o ho] at h
    cases h
  · cases h

/-- The run has one catalog in the store, in the file and for fresh loaders. -/
theorem run_agrees_on_story :
    storySession.IsSound storySession.files ∧
      savingPlan.output = some ⟨"/", ["out", "stories.json"]⟩ ∧
      Agrees ⟨"/", ["out", "stories.json"]⟩ storySession.files runOfStory := by
  have hsound : storySession.IsSound storySession.files :=
    Session.isSound_of_unknown rfl (by rintro page ⟨⟩)
  have houtput : savingPlan.output = some ⟨"/", ["out", "stories.json"]⟩ := rfl
  refine ⟨hsound, houtput, ?_⟩
  rcases run_agrees_or_untouched hsound houtput StoryFile.contextOfOne (.ofInt 0) (.ofInt 0) .none
    .empty with hagrees | huntouched
  · exact hagrees
  · have hcatalog : hasCatalog runOfStory.1 = true := by decide +kernel
    exact absurd huntouched (not_untouched_of_hasCatalog hcatalog)

/-- Settings that save where the run does, and look for the project in the home of a user. -/
def homelessSettings : Settings.Checked Settings :=
  Settings.ofValues [("project_root", .string "~nobody-here/p"), ("output_dir", .string "/out")]

/-- Home directories of a system on which nobody but the own user is known. -/
def ownHome : Homes := .ofPath ⟨"/", ["home"]⟩

/-- The place of the settings, and whether they make a loader. -/
private def placeAndLoader (settings : Settings) : Option (Path × Bool) :=
  match settings.outputPath ⟨"/", []⟩ ownHome with
  | .ok place => some (place, (CatalogLoader.ofSettings settings ⟨"/", []⟩ ownHome).isOk)
  | .error _ => none

private theorem not_isOk_of_placeAndLoader {settings : Settings}
    (h : placeAndLoader settings = some (p, false)) :
    settings.outputPath ⟨"/", []⟩ ownHome = .ok p ∧
      ∀ loader, CatalogLoader.ofSettings settings ⟨"/", []⟩ ownHome ≠ .ok loader := by
  unfold placeAndLoader at h
  split at h
  · next place hplace =>
    obtain ⟨rfl, hloader⟩ := Prod.mk.inj (Option.some.inj h)
    refine ⟨hplace, ?_⟩
    intro loader hok
    rw [hok] at hloader
    cases hloader
  · cases h

/-- The run has a catalog, but there are settings that save where it does and make no loader. -/
theorem not_loaded_without_home :
    hasCatalog runOfStory.1 = true ∧
      ∃ settings, homelessSettings = .ok settings ∧
        settings.outputPath ⟨"/", []⟩ ownHome = .ok ⟨"/", ["out", "stories.json"]⟩ ∧
        ∀ loader, CatalogLoader.ofSettings settings ⟨"/", []⟩ ownHome ≠ .ok loader := by
  refine ⟨by decide +kernel, ?_⟩
  have hplace : homelessSettings.toOption.bind placeAndLoader =
      some (⟨"/", ["out", "stories.json"]⟩, false) := by decide +kernel
  cases hsettings : homelessSettings with
  | error faults =>
    rw [hsettings] at hplace
    cases hplace
  | ok settings =>
    rw [hsettings] at hplace
    exact ⟨settings, rfl, not_isOk_of_placeAndLoader hplace⟩

end ExtractionPlan

end StoryCatalog
