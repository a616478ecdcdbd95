import StoryCatalog.Extraction.Selection
import StoryCatalog.Proofs.Session.Work
import StoryCatalog.Proofs.Story.Discovery

/-!
# What strategies contribute

A strategy contributes its catalog to a selection if the catalog has a story. The strategies for the
source files and for a built Storybook leave the session as it is and are never misconfigured.
-/

namespace StoryCatalog

/-- The catalog that a behaviour contributes: one with a story. -/
def Behaviour.contribution? : Behaviour → Option Catalog
  | .returned (some c) => if c.size = 0 then none else some c
  | _ => none

namespace Behaviour

/-- A contribution is kept by a successful attempt. -/
theorem attempt_of_contribution {b : Behaviour} {catalog : Catalog} (name : Text)
    (limit : Option Number) (h : b.contribution? = some catalog) :
    b.attempt name limit =
      .ok ({ name, status := .succeeded, stories := catalog.size }, some catalog) := by
  unfold contribution? at h
  split at h
  · next found =>
    by_cases hsize : found.size = 0
    · rw [if_pos hsize] at h
      cases h
    · rw [if_neg hsize] at h
      cases h
      simp only [attempt, if_neg hsize]
  · cases h

/-- Without a contribution the attempt keeps no catalog, unless the configuration is at fault. -/
theorem attempt_of_none {b : Behaviour} (name : Text) (limit : Option Number)
    (h : b.contribution? = none) (hconfig : ∀ error, b ≠ .misconfigured error) :
    ∃ attempt : Attempt, b.attempt name limit = .ok (attempt, none) ∧
      attempt.name = name ∧ attempt.status ≠ .succeeded := by
  cases b with
  | inapplicable => exact ⟨_, rfl, rfl, by simp⟩
  | returned catalog =>
    cases catalog with
    | none => exact ⟨_, rfl, rfl, by simp⟩
    | some found =>
      have hsize : found.size = 0 := by
        by_cases hsize : found.size = 0
        · exact hsize
        · simp only [contribution?, if_neg hsize] at h
          cases h
      refine ⟨{ name, status := .empty }, ?_, rfl, by simp⟩
      simp only [attempt, if_pos hsize]
  | misconfigured error => exact absurd rfl (hconfig error)
  | failed failure => exact ⟨_, rfl, rfl, by simp⟩
  | timedOut error => exact ⟨_, rfl, rfl, by simp⟩
  | overran => exact ⟨_, rfl, rfl, by simp⟩

end Behaviour

namespace Selection

variable {c : ExtractionContext} {limit : Option Number} {strategy : Strategy} {s s' : Session}

/-- The catalog that a strategy contributes to a selection in a session. -/
def contribution? (c : ExtractionContext) (limit : Option Number) (strategy : Strategy)
    (s : Session) : Option Catalog :=
  (behaviour c limit strategy s).1.contribution?

/-- A contribution ends the selection. -/
theorem tryAll_cons_of_contribution {catalog : Catalog} (attempts : List Attempt)
    (rest : List Strategy) (hs : (behaviour c limit strategy s).2 = s')
    (h : contribution? c limit strategy s = some catalog) :
    tryAll c limit attempts (strategy :: rest) s =
      (.ok ⟨some catalog, attempts ++
        [{ name := strategy.name, status := .succeeded, stories := catalog.size }]⟩, s') := by
  rw [tryAll]
  dsimp only
  rw [Behaviour.attempt_of_contribution strategy.name limit h, hs]

/-- Without a contribution the next strategy is tried. -/
theorem tryAll_cons_of_none (attempts : List Attempt) (rest : List Strategy)
    (hs : (behaviour c limit strategy s).2 = s') (h : contribution? c limit strategy s = none)
    (hconfig : ∀ error, (behaviour c limit strategy s).1 ≠ .misconfigured error) :
    ∃ attempt : Attempt, attempt.name = strategy.name ∧ attempt.status ≠ .succeeded ∧
      tryAll c limit attempts (strategy :: rest) s =
        tryAll c limit (attempts ++ [attempt]) rest s' := by
  obtain ⟨attempt, hattempt, hname, hstatus⟩ :=
    Behaviour.attempt_of_none strategy.name limit h hconfig
  refine ⟨attempt, hname, hstatus, ?_⟩
  rw [tryAll]
  dsimp only
  rw [hattempt, hs]

variable {r : Except Interruption (Option Catalog)}

/-- How a strategy behaves whose work looks at no limit and leaves the session alone. -/
theorem behaviour_of_perform
    (h : ∀ left, (strategy.extract c).perform { s with remaining := left } =
      (r, { s with remaining := left })) :
    behaviour c limit strategy s =
      (if strategy.isApplicable c s.files = true then
        if limit.any Work.isOver = true then .overran else Behaviour.ofResult r
      else .inapplicable, s) := by
  rw [behaviour]
  split
  · rw [Work.perform_limited_of_eq limit h]
    exact congrArg (·, s) (apply_ite Behaviour.ofResult _ _ _)
  · rfl

/-- If such work ends in no fault of the configuration, neither does the strategy. -/
theorem behaviour_of_eq (h : ∀ left, (strategy.extract c).perform { s with remaining := left } =
      (r, { s with remaining := left }))
    (hr : ∀ message context, r ≠ .error (.failed (.extraction (.config message context)))) :
    (behaviour c limit strategy s).2 = s ∧
      ((behaviour c limit strategy s).1 = .inapplicable ∨
        (behaviour c limit strategy s).1 = .overran ∨
        (behaviour c limit strategy s).1 = Behaviour.ofResult r) ∧
      ∀ error, (behaviour c limit strategy s).1 ≠ .misconfigured error := by
  have hresult : ∀ error, Behaviour.ofResult r ≠ .misconfigured error := by
    intro error
    unfold Behaviour.ofResult
    split <;> simp_all
  rw [behaviour_of_perform h]
  split
  · split
    · exact ⟨rfl, .inr (.inl rfl), fun error ↦ by simp⟩
    · exact ⟨rfl, .inr (.inr rfl), hresult⟩
  · exact ⟨rfl, .inl rfl, fun error ↦ by simp⟩

end Selection

namespace Catalog

theorem extractedFrom_foldl_add (c : Catalog) (records : List StoryRecord) :
    (records.foldl add c).extractedFrom = c.extractedFrom := by
  induction records generalizing c with
  | nil => rfl
  | cons r rest ih => exact ih (c.add r)

/-- Adding records does not change where a catalog was extracted from. -/
@[simp] theorem extractedFrom_ofRecords (source : Provenance) (now : Timestamp)
    (records : List StoryRecord) : (ofRecords source now records).extractedFrom = source :=
  extractedFrom_foldl_add _ records

end Catalog

namespace Strategy

open Selection

variable {c : ExtractionContext} {limit : Option Number} {s : Session}

/-- What the source files come to. -/
def sourcesResult (c : ExtractionContext) (s : Session) : Except Interruption (Option Catalog) :=
  match c.sourceDirectory with
  | none => .ok none
  | some directory =>
    let paths := StoryFile.discover s.files directory
    if paths.isEmpty then .ok none
    else
      match StoryFile.catalogOf s.files c.projectRoot s.now paths with
      | .ok catalog => .ok (some catalog)
      | .error error => .error (.failed (failureOf none error))

/-- What a built Storybook comes to. -/
def builtResult (c : ExtractionContext) (s : Session) : Option Catalog :=
  (c.outputDirectory.bind (StoryIndex.find? s.files)).map fun p ↦
    match StoryIndex.read s.files p with
    | .ok index => catalogOfIndex .builtStorybook s.now index
    | .error _ => .empty .builtStorybook s.now

theorem perform_extractSources (c : ExtractionContext) (s : Session) :
    (extractSources c).perform s = (sourcesResult c s, s) := by
  unfold extractSources sourcesResult
  cases c.sourceDirectory with
  | none => rfl
  | some directory =>
    dsimp only
    rw [Work.perform_bind_ok (Work.perform_get s)]
    split
    · rfl
    · cases StoryFile.catalogOf s.files c.projectRoot s.now _ <;> rfl

theorem perform_extractBuilt (c : ExtractionContext) (s : Session) :
    (extractBuilt c).perform s = (.ok (builtResult c s), s) := by
  unfold extractBuilt builtResult
  rw [Work.perform_bind_ok (Work.perform_get s)]
  cases c.outputDirectory.bind (StoryIndex.find? s.files) with
  | none => rfl
  | some p =>
    rw [Option.map_some]
    dsimp only
    cases StoryIndex.read s.files p <;> rfl

theorem sourcesResult_ne_config (c : ExtractionContext) (s : Session) (message : Text)
    (context : Fields Json) :
    sourcesResult c s ≠ .error (.failed (.extraction (.config message context))) := by
  unfold sourcesResult
  split
  · simp
  · dsimp only
    split
    · simp
    · split
      · simp
      · next error _ => cases error <;> simp [failureOf]

theorem extractedFrom_sourcesResult {catalog : Catalog}
    (h : sourcesResult c s = .ok (some catalog)) : catalog.extractedFrom = .sourceFiles := by
  unfold sourcesResult at h
  split at h
  · cases h
  · dsimp only at h
    split at h
    · cases h
    · split at h
      · next found hfound =>
        cases h
        obtain ⟨records, -, rfl⟩ := StoryFile.exists_records_of_catalogOf hfound
        exact Catalog.extractedFrom_ofRecords ..
      · cases h

theorem extractedFrom_builtResult {catalog : Catalog} (h : builtResult c s = some catalog) :
    catalog.extractedFrom = .builtStorybook := by
  obtain ⟨p, -, rfl⟩ := Option.map_eq_some_iff.mp h
  split
  · exact Catalog.extractedFrom_ofRecords ..
  · rfl

theorem behaviour_sources (c : ExtractionContext) (limit : Option Number) (s : Session) :
    behaviour c limit sourceFiles s =
      (if sourceFiles.isApplicable c s.files = true then
        if limit.any Work.isOver = true then .overran else Behaviour.ofResult (sourcesResult c s)
      else .inapplicable, s) :=
  behaviour_of_perform fun left ↦ perform_extractSources c { s with remaining := left }

theorem behaviour_built (c : ExtractionContext) (limit : Option Number) (s : Session) :
    behaviour c limit builtStorybook s =
      (if builtStorybook.isApplicable c s.files = true then
        if limit.any Work.isOver = true then .overran else .returned (builtResult c s)
      else .inapplicable, s) :=
  behaviour_of_perform (r := .ok (builtResult c s)) fun left ↦
    perform_extractBuilt c { s with remaining := left }

/-- The source files are parsed without a trace in the session. -/
theorem behaviour_sourceFiles (c : ExtractionContext) (limit : Option Number) (s : Session) :
    (behaviour c limit sourceFiles s).2 = s ∧
      ((behaviour c limit sourceFiles s).1 = .inapplicable ∨
        (behaviour c limit sourceFiles s).1 = .overran ∨
        (behaviour c limit sourceFiles s).1 = Behaviour.ofResult (sourcesResult c s)) ∧
      ∀ error, (behaviour c limit sourceFiles s).1 ≠ .misconfigured error :=
  behaviour_of_eq (fun left ↦ perform_extractSources c { s with remaining := left })
    (sourcesResult_ne_config c s)

/-- A built Storybook is read without a trace in the session. -/
theorem behaviour_builtStorybook (c : ExtractionContext) (limit : Option Number) (s : Session) :
    (behaviour c limit builtStorybook s).2 = s ∧
      ((behaviour c limit builtStorybook s).1 = .inapplicable ∨
        (behaviour c limit builtStorybook s).1 = .overran ∨
        (behaviour c limit builtStorybook s).1 = .returned (builtResult c s)) ∧
      ∀ error, (behaviour c limit builtStorybook s).1 ≠ .misconfigured error :=
  behaviour_of_eq (r := .ok (builtResult c s))
    (fun left ↦ perform_extractBuilt c { s with remaining := left }) (fun _ _ ↦ by simp)

/-- A catalog that the source files contribute says so. -/
theorem extractedFrom_of_sourceFiles {catalog : Catalog}
    (h : contribution? c limit sourceFiles s = some catalog) :
    sourcesResult c s = .ok (some catalog) ∧ catalog.extractedFrom = .sourceFiles := by
  unfold contribution? at h
  rcases (behaviour_sourceFiles c limit s).2.1 with hb | hb | hb <;> rw [hb] at h
  · cases h
  · cases h
  · have hresult : sourcesResult c s = .ok (some catalog) := by
      unfold Behaviour.ofResult Behaviour.contribution? at h
      grind
    exact ⟨hresult, extractedFrom_sourcesResult hresult⟩

/-- A catalog that a built Storybook contributes says so. -/
theorem extractedFrom_of_builtStorybook {catalog : Catalog}
    (h : contribution? c limit builtStorybook s = some catalog) :
    builtResult c s = some catalog ∧ catalog.extractedFrom = .builtStorybook := by
  unfold contribution? at h
  rcases (behaviour_builtStorybook c limit s).2.1 with hb | hb | hb <;> rw [hb] at h
  · cases h
  · cases h
  · have hresult : builtResult c s = some catalog := by
      unfold Behaviour.contribution? at h
      grind
    exact ⟨hresult, extractedFrom_builtResult hresult⟩

end Strategy

end StoryCatalog
