import StoryCatalog.Catalog.Store
import StoryCatalog.Extraction.Selection

/-!
# Runs of an extraction

A run selects a catalog, saves it and puts it into the store. A catalog of a built Storybook may
first be exchanged for a richer one from the source files or from a running Storybook. The store is
changed only when the catalog has been saved.
-/

namespace StoryCatalog

/-- What a run is asked to do: which strategies to try, whether to look for something richer, where
to save the catalog, and how many seconds a strategy may take. -/
structure ExtractionPlan where
  mode : ExtractionMode
  enhance : Bool
  output : Option Path
  limit : Option Number

/-- Why a run comes to no outcome. -/
inductive RunFault where
  | extraction (error : ExtractionError)
  | save (fault : Snapshot.SaveFault)

namespace ExtractionPlan

/-- The plan that settings make; a catalog that is to be saved is saved where they say. -/
def ofSettings (s : Settings) (working : Path) (homes : Homes) (mode : ExtractionMode)
    (enhance saves : Bool) : Except Failure ExtractionPlan := do
  let output ← (s.outputPath working homes).mapError .home
  return {
    mode, enhance
    output := if saves then some output else none
    limit := s.runLimit.map .float }

/-- Looks for a catalog with more than an index tells, after an outcome for a built Storybook. -/
def enhanced (c : ExtractionContext) (limit : Option Number) (outcome : Outcome) (s : Session) :
    Except ExtractionError Outcome × Session :=
  match Selection.select c limit ExtractionMode.dev.strategies s with
  | (.error error, s) => (.error error, s)
  | (.ok other, s) =>
    match other.catalog with
    | some catalog =>
      if catalog.extractedFrom.isDeep then
        (.ok ⟨some catalog, outcome.attempts ++ other.attempts⟩, s)
      else (.ok outcome, s)
    | none => (.ok outcome, s)

/-- The outcome of the strategies, before anything is saved. -/
def selected (plan : ExtractionPlan) (c : ExtractionContext) (s : Session) :
    Except ExtractionError Outcome × Session :=
  match Selection.select c plan.limit plan.mode.strategies s with
  | (.error error, s) => (.error error, s)
  | (.ok outcome, s) =>
    if plan.enhance && plan.mode = .build && outcome.hasSucceeded then
      enhanced c plan.limit outcome s
    else (.ok outcome, s)

/-- Saves a catalog, if it is to be saved. -/
def saveAt (output : Option Path) (time : Binary64) (trouble : Snapshot.Trouble) (catalog : Catalog)
    (fs : FileSystem) : FileSystem × Except Snapshot.SaveFault Unit :=
  match output with
  | none => (fs, .ok ())
  | some p => Snapshot.save fs time trouble p catalog

/-- Runs an extraction. The catalog is saved and put into the store at a time of the clock. -/
def run (plan : ExtractionPlan) (c : ExtractionContext) (time clock : Binary64)
    (trouble : Snapshot.Trouble) (store : CatalogStore) (s : Session) :
    Except RunFault Outcome × CatalogStore × Session :=
  match plan.selected c s with
  | (.error error, s) => (.error (.extraction error), store, s)
  | (.ok outcome, s) =>
    match outcome.catalog with
    | none => (.ok outcome, store, s)
    | some catalog =>
      match saveAt plan.output time trouble catalog s.files with
      | (files, .error fault) => (.error (.save fault), store, { s with files })
      | (files, .ok ()) =>
        (.ok outcome, store.replace files clock catalog plan.output, { s with files })

end ExtractionPlan

end StoryCatalog
