import StoryCatalog.Proofs.Extraction.AfterSave
import StoryCatalog.Proofs.Extraction.Enhancement
import StoryCatalog.Proofs.Extraction.Order
import StoryCatalog.Proofs.Extraction.Outcome
import StoryCatalog.Proofs.Extraction.Persistence

/-!
# Strategies and selections that recur

A strategy recurs if it contributes the same catalog, but for the time, when files and time of the
session are exchanged. After a save the source files and a running Storybook recur, and so does a
built Storybook unless its index stood where the snapshot is (`Strategy.contribution?_after`). If
all strategies recur, so does what a plan selects (`ExtractionPlan.selected_recurs`).
-/

namespace StoryCatalog

open Work Selection

variable {c : ExtractionContext} {limit : Option Number} {fs fs' : FileSystem}
  {before now : Timestamp} {strategy : Strategy} {s : Session} {p : Path}

/-! ### Strategies that recur -/

/-- Another behaviour contributes the same catalog, but for the time, and finds fault with the
configuration only if the first one does. -/
structure Behaviour.Recurs (now : Timestamp) (b b' : Behaviour) : Prop where
  contribution : b'.contribution? = b.contribution?.map (Catalog.redated now)
  config : ∀ error, b' = .misconfigured error → b = .misconfigured error

/-- In sessions with other files and another time the strategy behaves the same. -/
structure Strategy.RecursAt (c : ExtractionContext) (limit : Option Number) (fs' : FileSystem)
    (now : Timestamp) (strategy : Strategy) (s : Session) : Prop where
  session : (behaviour c limit strategy (s.moved fs' now)).2 =
    (behaviour c limit strategy s).2.moved fs' now
  recurs : Behaviour.Recurs now (behaviour c limit strategy s).1
    (behaviour c limit strategy (s.moved fs' now)).1
  stays : (behaviour c limit strategy s).2.IsAt s.files s.now

/-- The strategy behaves the same in all sessions with the same files and at the same time. -/
def Strategy.Recurs (c : ExtractionContext) (limit : Option Number) (fs fs' : FileSystem)
    (before now : Timestamp) (strategy : Strategy) : Prop :=
  ∀ s, s.IsAt fs before → strategy.RecursAt c limit fs' now s

namespace Behaviour

theorem contribution?_redated (now : Timestamp) (found : Option Catalog) :
    contribution? (.returned (found.map (Catalog.redated now))) =
      (contribution? (.returned found)).map (Catalog.redated now) := by
  cases found with
  | none => rfl
  | some catalog =>
    rw [Option.map_some, contribution?, contribution?]
    change (if catalog.size = 0 then _ else _) = _
    split <;> rfl

/-- What comes later in the same work is the same behaviour. -/
theorem recurs_ofResult (now : Timestamp) (r : Except Interruption (Option Catalog)) :
    Recurs now (ofResult r) (ofResult (r.map (Option.map (Catalog.redated now)))) := by
  cases r with
  | ok found => exact ⟨contribution?_redated now found, by rintro error ⟨⟩⟩
  | error e =>
    have hnone : (ofResult (.error e)).contribution? = none := by
      unfold ofResult
      split <;> first | rfl | contradiction
    exact ⟨by rw [Except.map, hnone]; rfl, fun error h ↦ h⟩

end Behaviour

namespace Strategy

theorem recursAt_of_still (h : (behaviour c limit strategy s).2 = s)
    (h' : (behaviour c limit strategy (s.moved fs' now)).2 = s.moved fs' now)
    (hrecurs : Behaviour.Recurs now (behaviour c limit strategy s).1
      (behaviour c limit strategy (s.moved fs' now)).1) : strategy.RecursAt c limit fs' now s where
  session := by rw [h, h']
  recurs := hrecurs
  stays := by
    rw [h]
    exact ⟨rfl, rfl⟩

/-- A strategy that looks neither at the files nor at the time, but for the catalog's, recurs. -/
theorem recurs_of_follows (happlies : strategy.isApplicable c fs' = strategy.isApplicable c fs)
    (h : Follows (fun now ↦ Option.map (Catalog.redated now)) (strategy.extract c)) :
    strategy.Recurs c limit fs fs' before now := by
  rintro s ⟨rfl, rfl⟩
  have hlimited := h.limited limit
  have hmoved := hlimited fs' now s
  have hsame : strategy.isApplicable c (s.moved fs' now).files = strategy.isApplicable c s.files :=
    happlies
  by_cases happlicable : strategy.isApplicable c s.files = true
  · constructor
    · rw [behaviour, behaviour, if_pos happlicable, hsame, if_pos happlicable, hmoved]
    · rw [behaviour, behaviour, if_pos happlicable, hsame, if_pos happlicable, hmoved]
      exact Behaviour.recurs_ofResult now _
    · rw [behaviour, if_pos happlicable]
      exact hlimited.isAt ⟨rfl, rfl⟩
  · constructor
    · rw [behaviour, behaviour, if_neg happlicable, hsame, if_neg happlicable]
    · rw [behaviour, behaviour, if_neg happlicable, hsame, if_neg happlicable]
      exact ⟨rfl, by rintro error ⟨⟩⟩
    · rw [behaviour, if_neg happlicable]
      exact ⟨rfl, rfl⟩

variable (hafter : Snapshot.IsAfter p fs fs') (htree : fs.IsTree)

include hafter

omit hafter in
theorem isDirectoryAt_iff {directory : Option Path} :
    ExtractionContext.isDirectoryAt fs directory = true ↔
      ∃ d, directory = some d ∧ fs.isDirectory d = true := by
  cases directory <;> simp [ExtractionContext.isDirectoryAt]

theorem isDirectoryAt_after {directory : Option Path}
    (h : ExtractionContext.isDirectoryAt fs directory = true) :
    ExtractionContext.isDirectoryAt fs' directory = true := by
  obtain ⟨d, rfl, hd⟩ := isDirectoryAt_iff.mp h
  exact FileSystem.isDirectory_of_keeps hafter.keeps hd

/-- A context that was valid is valid after a save. -/
theorem validate_after (h : c.validate fs = .ok ()) : c.validate fs' = .ok () := by
  unfold ExtractionContext.validate at h ⊢
  split at h
  · cases h
  · next hroot =>
    have hroot' : fs'.isDirectory c.projectRoot = true :=
      FileSystem.isDirectory_of_keeps hafter.keeps (by simpa using hroot)
    split at h
    · cases h
    · next hsource =>
      have hsource' : ¬ (c.requiresSource &&
          !ExtractionContext.isDirectoryAt fs' c.sourceDirectory) = true := by
        intro hmissing
        rw [Bool.and_eq_true, Bool.not_eq_true'] at hmissing
        refine hsource ?_
        rw [Bool.and_eq_true, Bool.not_eq_true']
        refine ⟨hmissing.1, Bool.eq_false_iff.mpr fun hthere ↦ ?_⟩
        rw [isDirectoryAt_after hafter hthere] at hmissing
        cases hmissing.2
      rw [hroot', if_neg (by simp), if_neg hsource']

include htree

/-- What the source files of a directory come to after a save is the same but for the time. -/
theorem sourcesResult_after {directory : Path} (hsource : c.sourceDirectory = some directory)
    (hplain : fs.IsPlain directory) (hthere : fs.isDirectory directory = true)
    (hs : s.files = fs) :
    sourcesResult c (s.moved fs' now) =
      (sourcesResult c s).map (Option.map (Catalog.redated now)) := by
  subst hs
  have hrecords := hafter.recordsOf_eq htree c.projectRoot
    fun q hq ↦ hafter.isPlain_of_mem_discover htree hplain hq
  unfold sourcesResult
  rw [hsource]
  dsimp only [Session.moved]
  rw [hafter.discover_eq hthere]
  split
  · rfl
  · rw [StoryFile.catalogOf, StoryFile.catalogOf, hrecords]
    cases StoryFile.recordsOf s.files c.projectRoot _ with
    | error error => rfl
    | ok records =>
      exact congrArg (fun catalog ↦ Except.ok (some catalog))
        (redated_ofRecords .sourceFiles s.now now records)

/-- There is no story file in a directory that is new. -/
private theorem sourcesResult_new {directory : Path} (hsource : c.sourceDirectory = some directory)
    (hplain : s.files.IsPlain directory) (hmissing : s.files.isDirectory directory = false)
    (hfiles : s.files = fs) : sourcesResult c (s.moved fs' now) = .ok none := by
  subst hfiles
  unfold sourcesResult
  rw [hsource]
  dsimp only [Session.moved]
  rw [hafter.discover_new htree hplain hmissing]
  rfl

/-- The source files recur after a save. -/
theorem recurs_sourceFiles (hplain : ∀ d, c.sourceDirectory = some d → fs.IsPlain d) :
    sourceFiles.Recurs c limit fs fs' before now := by
  rintro s ⟨rfl, rfl⟩
  refine recursAt_of_still (by rw [behaviour_sources]) (by rw [behaviour_sources]) ?_
  rw [behaviour_sources, behaviour_sources]
  by_cases happlicable : sourceFiles.isApplicable c s.files = true
  · obtain ⟨hparser, hat⟩ := Bool.and_eq_true_iff.mp happlicable
    obtain ⟨directory, hsource, hthere⟩ := isDirectoryAt_iff.mp hat
    have happlicable' : sourceFiles.isApplicable c (s.moved fs' now).files = true :=
      Bool.and_eq_true_iff.mpr ⟨hparser, isDirectoryAt_after hafter hat⟩
    rw [if_pos happlicable, if_pos happlicable']
    split
    · exact ⟨rfl, by rintro error ⟨⟩⟩
    · rw [sourcesResult_after hafter htree hsource (hplain directory hsource) hthere rfl]
      exact Behaviour.recurs_ofResult now _
  · rw [if_neg happlicable]
    split
    · next happlicable' =>
      obtain ⟨hparser, hat⟩ := Bool.and_eq_true_iff.mp happlicable'
      obtain ⟨directory, hsource, -⟩ := isDirectoryAt_iff.mp hat
      have hmissing : s.files.isDirectory directory = false := by
        rw [← Bool.not_eq_true]
        intro hold
        exact happlicable
          (Bool.and_eq_true_iff.mpr ⟨hparser, isDirectoryAt_iff.mpr ⟨directory, hsource, hold⟩⟩)
      split
      · exact ⟨rfl, by rintro error ⟨⟩⟩
      · rw [sourcesResult_new hafter htree hsource (hplain directory hsource) hmissing rfl]
        exact ⟨rfl, by rintro error ⟨⟩⟩
    · exact ⟨rfl, by rintro error ⟨⟩⟩

omit hafter htree in
/-- What a built Storybook contributes is what it comes to, if there is time for it. -/
theorem contribution?_builtStorybook (c : ExtractionContext) (limit : Option Number) (s : Session) :
    contribution? c limit builtStorybook s =
      if limit.any isOver = true then none
      else Behaviour.contribution? (.returned (builtResult c s)) := by
  have happlies : builtStorybook.isApplicable c s.files = (builtResult c s).isSome :=
    (Option.isSome_map ..).symm
  rw [contribution?, behaviour_built, happlies]
  cases builtResult c s with
  | none => rw [if_neg (by simp)]; split <;> rfl
  | some catalog => rw [if_pos Option.isSome_some]; split <;> rfl

omit hafter htree in
/-- What a built Storybook contributes depends on the files and the time alone. -/
theorem contribution?_builtStorybook_congr {t : Session} (ht : t.IsAt s.files s.now) :
    contribution? c limit builtStorybook t = contribution? c limit builtStorybook s := by
  have hresult : builtResult c t = builtResult c s := by
    rw [builtResult, builtResult, ht.1, ht.2]
  rw [contribution?_builtStorybook, contribution?_builtStorybook, hresult]

/-- What a built Storybook contributes after a save is the same but for the time, and nothing if its
index stood where the snapshot is. -/
theorem contribution?_after (hname : p.name = Snapshot.defaultName)
    (hplain : ∀ o, c.outputDirectory = some o → fs.IsPlain o) (hs : s.files = fs) :
    contribution? c limit builtStorybook (s.moved fs' now) =
      if ∃ q, c.outputDirectory.bind (StoryIndex.find? fs) = some q ∧
        fs.namesOf q = fs.namesOf p then none
      else (contribution? c limit builtStorybook s).map (Catalog.redated now) := by
  rw [contribution?_builtStorybook, contribution?_builtStorybook,
    hafter.builtResult_eq htree hname hplain hs]
  by_cases hover : limit.any isOver = true
  · rw [if_pos hover, if_pos hover]
    split <;> rfl
  · rw [if_neg hover, if_neg hover]
    split
    · rfl
    · exact Behaviour.contribution?_redated now _

/-- A built Storybook recurs after a save if it has not contributed an index that stood where the
snapshot is. -/
theorem recurs_builtStorybook (hname : p.name = Snapshot.defaultName)
    (hplain : ∀ o, c.outputDirectory = some o → fs.IsPlain o) (hs : s.files = fs)
    (h : contribution? c limit builtStorybook s = none ∨
      ¬ ∃ q, c.outputDirectory.bind (StoryIndex.find? fs) = some q ∧
        fs.namesOf q = fs.namesOf p) :
    builtStorybook.RecursAt c limit fs' now s := by
  refine recursAt_of_still (by rw [behaviour_built]) (by rw [behaviour_built]) ⟨?_, ?_⟩
  · change contribution? c limit builtStorybook (s.moved fs' now) =
      (contribution? c limit builtStorybook s).map (Catalog.redated now)
    rw [contribution?_after hafter htree hname hplain hs]
    rcases h with hnone | hother
    · rw [hnone, Option.map_none, ite_self]
    · rw [if_neg hother]
  · intro error herror
    exact absurd herror ((behaviour_builtStorybook c limit (s.moved fs' now)).2.2 error)

end Strategy

/-! ### Selections that recur -/

/-- Another selection comes to the same catalog but for the time, in the other session. -/
def RecursTo (fs' : FileSystem) (now : Timestamp)
    (result result' : Except ExtractionError Outcome × Session) : Prop :=
  ∀ o, result.1 = .ok o → result'.2 = result.2.moved fs' now ∧
    ∃ o', result'.1 = .ok o' ∧ o'.catalog = o.catalog.map (Catalog.redated now)

theorem Behaviour.Recurs.passesOn {b b' : Behaviour} (h : Behaviour.Recurs now b b')
    (hpasses : b.PassesOn) : b'.PassesOn := by
  constructor
  · rw [h.contribution, hpasses.1]
    rfl
  · intro error hconfig
    exact hpasses.2 error (h.config error hconfig)

namespace Selection

variable {strategies : List Strategy}

/-- Strategies that recur make a selection that recurs, whatever was attempted before. -/
theorem tryAll_recurs (hall : ∀ strategy ∈ strategies, strategy.Recurs c limit fs fs' before now)
    (acc acc' : List Attempt) (hs : s.IsAt fs before) :
    RecursTo fs' now (tryAll c limit acc strategies s)
        (tryAll c limit acc' strategies (s.moved fs' now)) ∧
      (tryAll c limit acc strategies s).2.IsAt fs before := by
  induction strategies generalizing acc acc' s with
  | nil =>
    refine ⟨?_, hs⟩
    rintro o ⟨⟩
    exact ⟨rfl, _, rfl, rfl⟩
  | cons strategy rest ih =>
    obtain ⟨hstrategy, hrest⟩ := List.forall_mem_cons.mp hall
    obtain ⟨hsession, hrecurs, hstays⟩ := hstrategy s hs
    rw [hs.1, hs.2] at hstays
    rcases Behaviour.passesOn_or (behaviour c limit strategy s).1 with
      hpasses | ⟨catalog, hb, hsize⟩ | ⟨error, hb⟩
    · obtain ⟨attempt, hattempt, -⟩ := Behaviour.attempt_of_passesOn strategy.name limit hpasses
      obtain ⟨attempt', hattempt', -⟩ :=
        Behaviour.attempt_of_passesOn strategy.name limit (hrecurs.passesOn hpasses)
      rw [tryAll, tryAll]
      dsimp only
      rw [hattempt, hattempt', hsession]
      exact ih hrest _ _ hstays
    · have hcontribution : (behaviour c limit strategy s).1.contribution? = some catalog := by
        rw [hb, Behaviour.contribution?, if_neg hsize]
      have hcontribution' := hrecurs.contribution
      rw [hcontribution, Option.map_some] at hcontribution'
      rw [tryAll, tryAll]
      dsimp only
      rw [Behaviour.attempt_of_contribution _ _ hcontribution,
        Behaviour.attempt_of_contribution _ _ hcontribution', hsession]
      refine ⟨?_, hstays⟩
      rintro o ⟨⟩
      exact ⟨rfl, _, rfl, rfl⟩
    · rw [tryAll]
      dsimp only
      rw [hb]
      refine ⟨?_, hstays⟩
      rintro o ⟨⟩

theorem select_recurs (hvalid : c.validate fs = .ok () → c.validate fs' = .ok ())
    (hall : ∀ strategy ∈ strategies, strategy.Recurs c limit fs fs' before now)
    (hs : s.IsAt fs before) :
    RecursTo fs' now (select c limit strategies s) (select c limit strategies (s.moved fs' now)) ∧
      (select c limit strategies s).2.IsAt fs before := by
  rw [select, select]
  split
  · refine ⟨?_, hs⟩
    rintro o ⟨⟩
  · next hok =>
    rw [hs.1] at hok
    rw [show (s.moved fs' now).files = fs' from rfl, hvalid hok]
    exact tryAll_recurs hall [] [] hs

end Selection

namespace ExtractionPlan

/-- If all strategies recur, so does the search for something richer. -/
theorem enhanced_recurs (hvalid : c.validate fs = .ok () → c.validate fs' = .ok ())
    (hall : ∀ strategy ∈ ExtractionMode.dev.strategies, strategy.Recurs c limit fs fs' before now)
    (hs : s.IsAt fs before) {outcome outcome' : Outcome}
    (hcatalog : outcome'.catalog = outcome.catalog.map (Catalog.redated now)) :
    RecursTo fs' now (enhanced c limit outcome s)
      (enhanced c limit outcome' (s.moved fs' now)) := by
  obtain ⟨hrecurs, -⟩ := Selection.select_recurs hvalid hall hs
  intro o ho
  unfold enhanced at ho ⊢
  rcases hselect : select c limit ExtractionMode.dev.strategies s with ⟨error | other, t⟩
  · rw [hselect] at ho
    cases ho
  · rw [hselect] at ho hrecurs
    obtain ⟨hsession, other', hother', hcatalogs⟩ := hrecurs other rfl
    rcases hselect' : select c limit ExtractionMode.dev.strategies (s.moved fs' now) with ⟨_, t'⟩
    rw [hselect'] at hsession hother'
    dsimp only at hsession hother' ho ⊢
    subst hsession hother'
    dsimp only
    rw [hcatalogs]
    cases hfound : other.catalog with
    | none =>
      rw [hfound] at ho
      cases ho
      exact ⟨rfl, outcome', rfl, hcatalog⟩
    | some found =>
      rw [hfound] at ho
      dsimp only [Option.map_some] at ho ⊢
      rw [show (found.redated now).extractedFrom = found.extractedFrom from rfl]
      by_cases hdeep : found.extractedFrom.isDeep = true
      · rw [if_pos hdeep] at ho
        rw [if_pos hdeep, if_pos hdeep]
        cases ho
        exact ⟨rfl, _, rfl, rfl⟩
      · rw [if_neg hdeep] at ho
        rw [if_neg hdeep, if_neg hdeep]
        cases ho
        exact ⟨rfl, outcome', rfl, hcatalog⟩

/-- If all strategies recur, so does what a plan selects. -/
theorem selected_recurs (plan : ExtractionPlan)
    (hvalid : c.validate fs = .ok () → c.validate fs' = .ok ())
    (hall : ∀ strategy ∈ ExtractionMode.dev.strategies,
      strategy.Recurs c plan.limit fs fs' before now) (hs : s.IsAt fs before) :
    RecursTo fs' now (plan.selected c s) (plan.selected c (s.moved fs' now)) := by
  have hmode : ∀ strategy ∈ plan.mode.strategies, strategy.Recurs c plan.limit fs fs' before now :=
    fun strategy hmem ↦ hall strategy (ExtractionMode.mem_dev_strategies hmem)
  obtain ⟨hrecurs, hstays⟩ := Selection.select_recurs hvalid hmode hs
  intro o ho
  unfold selected at ho ⊢
  rcases hselect : select c plan.limit plan.mode.strategies s with ⟨error | outcome, t⟩
  · rw [hselect] at ho
    cases ho
  · rw [hselect] at ho hrecurs hstays
    obtain ⟨hsession, outcome', houtcome', hcatalog⟩ := hrecurs outcome rfl
    rcases hselect' : select c plan.limit plan.mode.strategies (s.moved fs' now) with ⟨_, t'⟩
    rw [hselect'] at hsession houtcome'
    dsimp only at hsession houtcome' ho ⊢
    subst hsession houtcome'
    dsimp only
    have hsucceeded : outcome'.hasSucceeded = outcome.hasSucceeded := by
      rw [Outcome.hasSucceeded, Outcome.hasSucceeded, hcatalog, Option.isSome_map]
    rw [hsucceeded]
    by_cases henhance : (plan.enhance && plan.mode = .build && outcome.hasSucceeded) = true
    · rw [if_pos henhance] at ho
      rw [if_pos henhance, if_pos henhance]
      exact enhanced_recurs hvalid hall hstays hcatalog o ho
    · rw [if_neg henhance] at ho
      rw [if_neg henhance, if_neg henhance]
      cases ho
      exact ⟨rfl, outcome', rfl, hcatalog⟩

end ExtractionPlan

end StoryCatalog
