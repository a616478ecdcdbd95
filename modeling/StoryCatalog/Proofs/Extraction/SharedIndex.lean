import StoryCatalog.Proofs.Extraction.Outcome
import StoryCatalog.Proofs.Index.Remote

/-!
# One index for all strategies

The strategies for a running Storybook ask for its index again and again, and the server may answer
differently each time. In one session it is asked at most once under each name, the second time only
if it refused the first, and whoever gets an index gets the same (`Uses.sharesIndex`), even if the
request was cut off.
-/

namespace StoryCatalog

open Work

/-! ### What a session has of the server -/

/-- What a session has of the server: the server itself, the requests made, and what is known of its
index. -/
def Session.serving (s : Session) : LiveServer × List Request × LiveIndex :=
  (s.server, s.requests, s.liveIndex)

theorem Session.keptByPage_serving (serving : LiveServer × List Request × LiveIndex) :
    KeptByPage fun s ↦ s.serving = serving where
  noting _ _ hs := hs
  waiting _ _ hs := hs

/-- Work that leaves alone what the session has of the server. -/
def Work.SparesServer {α : Type} (w : Work α) : Prop :=
  ∀ serving, Ensures (fun s ↦ s.serving = serving) (fun _ ↦ True) w

theorem Work.SparesServer.serving_perform {α : Type} {w : Work α} (h : w.SparesServer)
    (s : Session) : (w.perform s).2.serving = s.serving := (h s.serving s rfl).1

namespace Strategy

variable (c : ExtractionContext) (i : Introspector)

theorem sparesServer_introspectEntry (key : Text) (entry : IndexEntry) :
    (introspectEntry i key entry).SparesServer := by
  intro serving
  refine Ensures.bind (i.ensures_introspect (Session.keptByPage_serving serving) _)
    fun answer _ ↦ ?_
  cases answer with
  | error error => exact .pure trivial
  | ok fields =>
    dsimp only
    split
    · exact .pure trivial
    · exact .fail _

theorem sparesServer_introspectAll (entries : List (Text × IndexEntry)) :
    (introspectAll i entries).SparesServer := by
  intro serving
  induction entries with
  | nil => exact .pure trivial
  | cons entry rest ih =>
    refine Ensures.seq (sparesServer_introspectEntry i entry.1 entry.2 serving) fun first ↦ ?_
    exact Ensures.seq ih fun more ↦ .pure trivial

theorem sparesServer_openAndIntrospect (entries : List (Text × IndexEntry)) :
    (openAndIntrospect i entries).SparesServer := by
  intro serving
  refine Ensures.seq (i.ensures_openManager (Session.keptByPage_serving serving)) fun opened ↦ ?_
  split
  · exact .pure trivial
  · exact .fail _
  · exact Ensures.seq (.tryFinally (sparesServer_introspectAll i entries serving)
      Introspector.ensures_close) fun result ↦ .pure trivial

private theorem exists_extractDeep_eq : ∃ work : Option StoryIndex → Work (Option Catalog),
    extractDeep c = c.liveIndex >>= work ∧ ∀ found, (work found).SparesServer := by
  refine ⟨_, rfl, fun found serving ↦ ?_⟩
  cases found with
  | none => exact .pure trivial
  | some index =>
    dsimp only
    split
    · exact .pure trivial
    · refine Ensures.seq (sparesServer_openAndIntrospect _ _ serving) fun opened ↦ ?_
      split
      · exact Ensures.bind .get fun s _ ↦ .pure trivial
      · exact .pure trivial

private theorem exists_extractBasic_eq : ∃ work : Option StoryIndex → Work (Option Catalog),
    extractBasic c = c.liveIndex >>= work ∧ ∀ found, (work found).SparesServer := by
  refine ⟨_, rfl, fun found serving ↦ ?_⟩
  cases found with
  | none => exact .pure trivial
  | some index => exact Ensures.bind .get fun s _ ↦ .pure trivial

/-- The strategies for a running Storybook. -/
def live : List Strategy := [runningStorybook, storybookIndex]

/-- A strategy for a running Storybook works from the index that it is given, without requests. -/
theorem exists_extract_eq {strategy : Strategy} (h : strategy ∈ live) :
    ∃ work : Option StoryIndex → Work (Option Catalog),
      strategy.extract c = c.liveIndex >>= work ∧ ∀ found, (work found).SparesServer := by
  simp only [live, List.mem_cons, List.not_mem_nil, or_false] at h
  rcases h with rfl | rfl
  · exact exists_extractDeep_eq c
  · exact exists_extractBasic_eq c

end Strategy

/-! ### Asking for the index -/

namespace ExtractionContext

variable {c : ExtractionContext} {s : Session} {known : Option StoryIndex}

/-- The URLs of the index, in the order in which they are asked. -/
def indexUrls (c : ExtractionContext) : List Text :=
  match c.serverUrl with
  | none => []
  | some url => StoryIndex.servedNames.map fun name ↦
      Text.concat [StoryIndex.baseOf url, "/", name]

/-- What a session knows of the index once it has been asked for. -/
def knownAs (c : ExtractionContext) (known : Option StoryIndex) : LiveIndex :=
  if c.serverUrl.isSome then .known known else .unknown

/-- The first time the URLs are asked, and what they give is known from then on. -/
theorem asks_liveIndex (h : s.liveIndex = .unknown) :
    ∃ asked result, StoryIndex.Asks s.server s.requests c.indexUrls asked result ∧
      (c.liveIndex.perform s).1 = result ∧
      (c.liveIndex.perform s).2.serving =
        (s.server, s.requests ++ asked, c.knownAs (result.toOption.getD none)) := by
  unfold liveIndex indexUrls knownAs
  cases hurl : c.serverUrl with
  | none =>
    refine ⟨[], .ok none, .exhausted _, rfl, ?_⟩
    rw [List.append_nil, ← h]
    rfl
  | some url =>
    obtain ⟨asked, result, hfetch, hasks⟩ := StoryIndex.asks_fetchFirst
      (.index "Story index unavailable" (some (StoryIndex.baseOf url)))
      (StoryIndex.servedNames.map fun name ↦ Text.concat [StoryIndex.baseOf url, "/", name])
      { s with liveIndex := .known none }
    refine ⟨asked, _, hasks, ?_⟩
    dsimp only
    rw [perform_bind_ok (perform_get s), h]
    dsimp only
    rw [perform_bind_ok (perform_modify _ s)]
    have hfetch' : (StoryIndex.fetch url).perform { s with liveIndex := .known none } = _ := hfetch
    cases result with
    | error e =>
      rw [perform_bind_error hfetch']
      exact ⟨rfl, rfl⟩
    | ok answer =>
      rw [perform_bind_ok hfetch']
      cases answer <;> exact ⟨rfl, rfl⟩

/-- After that, nothing is asked. -/
theorem perform_liveIndex_of_knownAs (h : s.liveIndex = c.knownAs known)
    (hnone : c.serverUrl = none → known = none) :
    c.liveIndex.perform s = (.ok known, s) := by
  unfold knownAs at h
  cases hurl : c.serverUrl with
  | none =>
    rw [hnone hurl, liveIndex, hurl]
    rfl
  | some url =>
    rw [hurl] at h
    exact c.liveIndex_of_known s hurl h

end ExtractionContext

/-! ### Histories -/

/-- The answer to asking for the index under a limit, unless the work ends before there is one. -/
def ExtractionContext.indexGiven (c : ExtractionContext) (limit : Option Number) (s : Session) :
    Option (Option StoryIndex) :=
  ((limited limit c.liveIndex).perform s).1.toOption

namespace Selection

/-- Whether a strategy is tried that works from the index of a running Storybook. -/
def asksForIndex (c : ExtractionContext) (strategy : Strategy) (s : Session) : Bool :=
  (strategy.provenance = .runningStorybook || strategy.provenance = .storybookIndex) &&
    strategy.isApplicable c s.files

/-- The answer that a trial of a strategy gets, if it asks for the index. -/
def indexOfTrial (c : ExtractionContext) (limit : Option Number) (strategy : Strategy)
    (s : Session) : List (Option StoryIndex) :=
  if asksForIndex c strategy s then (c.indexGiven limit s).toList else []

/-- The answers that strategies get that are tried one after another. -/
def indexesOfTrials (c : ExtractionContext) (limit : Option Number) :
    List Strategy → Session → List (Option StoryIndex)
  | [], _ => []
  | strategy :: rest, s =>
    let (behaviour, s') := behaviour c limit strategy s
    indexOfTrial c limit strategy s ++
      match behaviour.attempt strategy.name limit with
      | .ok (_, none) => indexesOfTrials c limit rest s'
      | _ => []

/-- The answers that a selection gets. -/
def indexesGiven (c : ExtractionContext) (limit : Option Number) (strategies : List Strategy)
    (s : Session) : List (Option StoryIndex) :=
  match c.validate s.files with
  | .error _ => []
  | .ok () => indexesOfTrials c limit strategies s

end Selection

/-- The answers that a run gets, also when it looks for something richer. -/
def ExtractionPlan.indexesGiven (plan : ExtractionPlan) (c : ExtractionContext) (s : Session) :
    List (Option StoryIndex) :=
  Selection.indexesGiven c plan.limit plan.mode.strategies s ++
    match Selection.select c plan.limit plan.mode.strategies s with
    | (.error _, _) => []
    | (.ok outcome, s') =>
      if plan.enhance && plan.mode = .build && outcome.hasSucceeded then
        Selection.indexesGiven c plan.limit ExtractionMode.dev.strategies s'
      else []

/-- A history of a session in which the index has been asked for, and the answers that came. Whoever
asks goes on without requests until it is done or cut off. In between everything may change but what
the session has of the server. -/
inductive Uses (c : ExtractionContext) (s : Session) :
    List (Option StoryIndex) → Session → Prop where
  | begin : Uses c s [] s
  | meanwhile {s' s'' : Session} {found : List (Option StoryIndex)} (h : Uses c s found s')
    (hserving : s''.serving = s'.serving) : Uses c s found s''
  | ask {s' : Session} {found : List (Option StoryIndex)} (h : Uses c s found s')
    (limit : Option Number) {α : Type} (work : Option StoryIndex → Work α)
    (hwork : ∀ index, (work index).SparesServer) :
    Uses c s (found ++ (c.indexGiven limit s').toList)
      ((limited limit (c.liveIndex >>= work)).perform s').2

variable {c : ExtractionContext} {s s' : Session} {found : List (Option StoryIndex)}

/-- Under a limit, work is cut off at once or done in a session with the same server. -/
theorem Work.limited_cases (limit : Option Number) (s : Session) :
    (∀ {α : Type} (w : Work α), (limited limit w).perform s = (.error .cutOff, s)) ∨
      ∃ s₁ : Session, s₁.serving = s.serving ∧ ∀ {α : Type} (w : Work α),
        ((limited limit w).perform s).1 = (w.perform s₁).1 ∧
          ((limited limit w).perform s).2.serving = (w.perform s₁).2.serving := by
  cases limit with
  | none => exact .inr ⟨s, rfl, fun w ↦ ⟨rfl, rfl⟩⟩
  | some seconds =>
    by_cases hover : isOver seconds = true
    · refine .inl fun w ↦ ?_
      rw [perform_limited]
      exact if_pos hover
    · refine .inr ⟨{ s with remaining := some seconds.toBinary64 }, rfl, fun w ↦ ?_⟩
      rw [perform_limited]
      dsimp only
      rw [if_neg hover]
      exact ⟨rfl, rfl⟩

/-- What goes on after asking leaves alone what the session has of the server. -/
theorem Work.SparesServer.serving_bind {α β : Type} {w : Work α} {work : α → Work β}
    (h : ∀ a, (work a).SparesServer) (s : Session) :
    ((w >>= work).perform s).2.serving = (w.perform s).2.serving := by
  rcases hdone : w.perform s with ⟨e | a, s'⟩
  · rw [perform_bind_error hdone]
  · rw [perform_bind_ok hdone]
    exact (h a).serving_perform s'

namespace Uses

/-- As long as no answer has come, the index may not have been asked for; after that, all answers
are what the URLs gave. -/
theorem asked_or_not (h : Uses c s found s') (hs : s.liveIndex = .unknown) :
    (found = [] ∧ s'.serving = s.serving) ∨
      ∃ asked result, StoryIndex.Asks s.server s.requests c.indexUrls asked result ∧
        s'.serving = (s.server, s.requests ++ asked, c.knownAs (result.toOption.getD none)) ∧
        ∀ index ∈ found, index = result.toOption.getD none := by
  induction h with
  | begin => exact .inl ⟨rfl, rfl⟩
  | meanwhile h hserving ih =>
    rw [hserving]
    exact ih
  | @ask s' found h limit α work hwork ih =>
    rcases limited_cases limit s' with hcut | ⟨s₁, hs₁, hdone⟩
    · have hgiven : c.indexGiven limit s' = none := by
        rw [ExtractionContext.indexGiven, hcut]
        rfl
      rw [hgiven, hcut, Option.toList_none, List.append_nil]
      exact ih
    · have hgiven : c.indexGiven limit s' = (c.liveIndex.perform s₁).1.toOption := by
        rw [ExtractionContext.indexGiven, (hdone _).1]
      rw [hgiven, (hdone _).2, SparesServer.serving_bind hwork]
      refine .inr ?_
      rcases ih with ⟨rfl, hserving⟩ | ⟨asked, result, hasks, hserving, hfound⟩
      · -- Nobody has asked before.
        have hfresh : s₁.serving = (s.server, s.requests, .unknown) := by
          rw [hs₁, hserving, ← hs]
          rfl
        obtain ⟨asked, result, hasks, hresult, hafter⟩ :=
          ExtractionContext.asks_liveIndex (c := c) (s := s₁) (congrArg (·.2.2) hfresh)
        have hserver : s₁.server = s.server := congrArg (·.1) hfresh
        have hrequests : s₁.requests = s.requests := congrArg (·.2.1) hfresh
        rw [hserver, hrequests] at hasks hafter
        refine ⟨asked, result, hasks, hafter, ?_⟩
        rw [hresult, List.nil_append]
        intro index hindex
        rw [Option.mem_toList] at hindex
        rw [hindex]
        rfl
      · have hknown : s₁.liveIndex = c.knownAs (result.toOption.getD none) :=
          congrArg (·.2.2) (hs₁.trans hserving)
        have hnone : c.serverUrl = none → result.toOption.getD none = none := by
          intro hurl
          rw [ExtractionContext.indexUrls, hurl] at hasks
          cases hasks
          rfl
        rw [ExtractionContext.perform_liveIndex_of_knownAs hknown hnone]
        refine ⟨asked, result, hasks, hs₁.trans hserving, ?_⟩
        intro index hindex
        rcases List.mem_append.mp hindex with hbefore | hnow
        · exact hfound index hbefore
        · exact (Option.some.inj (Option.mem_toList.mp hnow)).symm

/-- Trying a strategy for a running Storybook is asking for the index. -/
theorem trial {strategy : Strategy} (h : Uses c s found s') (hlive : strategy ∈ Strategy.live)
    (happlies : strategy.isApplicable c s'.files = true) (limit : Option Number) :
    Uses c s (found ++ (c.indexGiven limit s').toList)
      (Selection.behaviour c limit strategy s').2 := by
  obtain ⟨work, hwork, hspares⟩ := Strategy.exists_extract_eq c hlive
  rw [Selection.behaviour, if_pos happlies, hwork]
  exact h.ask limit work hspares

/-- Trying any strategy is asking for the index as often as the strategy does. -/
theorem trial_of_mem {strategy : Strategy} (h : Uses c s found s')
    (hmem : strategy ∈ ExtractionMode.dev.strategies) (limit : Option Number) :
    Uses c s (found ++ Selection.indexOfTrial c limit strategy s')
      (Selection.behaviour c limit strategy s').2 := by
  have hlive : ∀ strategy ∈ Strategy.live,
      Selection.asksForIndex c strategy s' = strategy.isApplicable c s'.files →
      Uses c s (found ++ Selection.indexOfTrial c limit strategy s')
        (Selection.behaviour c limit strategy s').2 := by
    intro strategy hlive hasks
    rw [Selection.indexOfTrial, hasks]
    split
    · next happlies => exact h.trial hlive happlies limit
    · next hnot =>
      rw [Selection.behaviour, if_neg hnot, List.append_nil]
      exact h
  simp only [ExtractionMode.strategies, List.mem_cons, List.not_mem_nil, or_false] at hmem
  rcases hmem with rfl | rfl | rfl | rfl
  · rw [(Strategy.behaviour_sourceFiles c limit s').1]
    exact (List.append_nil found).symm ▸ h
  · rw [(Strategy.behaviour_builtStorybook c limit s').1]
    exact (List.append_nil found).symm ▸ h
  · exact hlive _ (by simp [Strategy.live]) (Bool.true_and _)
  · exact hlive _ (by simp [Strategy.live]) (Bool.true_and _)

/-- Trials one after another are part of a history. -/
theorem tryAll {strategies : List Strategy} (h : Uses c s found s')
    (hmem : ∀ strategy ∈ strategies, strategy ∈ ExtractionMode.dev.strategies)
    (limit : Option Number) (attempts : List Attempt) :
    Uses c s (found ++ Selection.indexesOfTrials c limit strategies s')
      (Selection.tryAll c limit attempts strategies s').2 := by
  induction strategies generalizing found s' attempts with
  | nil => exact (List.append_nil found).symm ▸ h
  | cons strategy rest ih =>
    obtain ⟨hfirst, hrest⟩ := List.forall_mem_cons.mp hmem
    have htrial := h.trial_of_mem hfirst limit
    rw [Selection.indexesOfTrials, Selection.tryAll]
    dsimp only
    rw [← List.append_assoc]
    rcases (Selection.behaviour c limit strategy s').1.attempt strategy.name limit with
      error | ⟨attempt, catalog | catalog⟩
    · rwa [List.append_nil]
    · exact ih htrial hrest _
    · rwa [List.append_nil]

/-- So is a selection. -/
theorem select {strategies : List Strategy} (h : Uses c s found s')
    (hmem : ∀ strategy ∈ strategies, strategy ∈ ExtractionMode.dev.strategies)
    (limit : Option Number) :
    Uses c s (found ++ Selection.indexesGiven c limit strategies s')
      (Selection.select c limit strategies s').2 := by
  unfold Selection.indexesGiven Selection.select
  cases c.validate s'.files with
  | error error => exact (List.append_nil found).symm ▸ h
  | ok _ => exact h.tryAll hmem limit []

private theorem snd_enhanced (limit : Option Number) (outcome : Outcome) (s : Session) :
    (ExtractionPlan.enhanced c limit outcome s).2 =
      (Selection.select c limit ExtractionMode.dev.strategies s).2 := by
  unfold ExtractionPlan.enhanced
  rcases Selection.select c limit ExtractionMode.dev.strategies s with ⟨error | other, s'⟩
  · rfl
  · dsimp only
    split
    · split <;> rfl
    · rfl

/-- Everything up to the outcome of a plan is part of a history. -/
theorem selected (h : Uses c s found s') (plan : ExtractionPlan) :
    Uses c s (found ++ plan.indexesGiven c s') (plan.selected c s').2 := by
  have hmode : ∀ strategy ∈ plan.mode.strategies, strategy ∈ ExtractionMode.dev.strategies :=
    fun _ ↦ ExtractionMode.mem_dev_strategies
  have hselect := h.select hmode plan.limit
  unfold ExtractionPlan.indexesGiven ExtractionPlan.selected
  rcases hdone : Selection.select c plan.limit plan.mode.strategies s' with ⟨error | outcome, s''⟩
  · rw [hdone] at hselect
    rwa [List.append_nil]
  · rw [hdone] at hselect
    dsimp only
    split
    · rw [snd_enhanced, ← List.append_assoc]
      exact hselect.select (fun _ h ↦ h) plan.limit
    · rwa [List.append_nil]

/-- Saving a catalog leaves alone what the session has of the server. -/
theorem serving_run (plan : ExtractionPlan) (c : ExtractionContext) (time clock : Binary64)
    (trouble : Snapshot.Trouble) (store : CatalogStore) (s : Session) :
    (plan.run c time clock trouble store s).2.2.serving = (plan.selected c s).2.serving := by
  unfold ExtractionPlan.run
  rcases plan.selected c s with ⟨error | o, s'⟩
  · rfl
  · dsimp only
    split
    · rfl
    · split <;> rfl

/-- A whole run is part of a history, also one that looks for something richer after it has found
a built Storybook. -/
theorem run (h : Uses c s found s') (plan : ExtractionPlan) (time clock : Binary64)
    (trouble : Snapshot.Trouble) (store : CatalogStore) :
    Uses c s (found ++ plan.indexesGiven c s') (plan.run c time clock trouble store s').2.2 :=
  (h.selected plan).meanwhile (serving_run plan c time clock trouble store s')

end Uses

/-- What a history comes to: the requests made in it, and the index that is known from then on. -/
structure SharesIndex (c : ExtractionContext) (s : Session) (found : List (Option StoryIndex))
    (s' : Session) (asked : List Request) (known : Option StoryIndex) : Prop where
  requests_eq : s'.requests = s.requests ++ asked
  /-- Under each name the index is asked for at most once. -/
  inTurn : asked.map Except.ok <+: c.indexUrls.map (StoryIndex.requestAt s.server)
  /-- It is asked for under the second name only if the first gave none. -/
  declined : 1 < asked.length → ∃ url, c.indexUrls.head? = some url ∧
    StoryIndex.Declines s.server s.requests url
  /-- All answers are the same. -/
  same : ∀ index ∈ found, index = known
  /-- The answers are what the requests gave, and none if they were interrupted. -/
  fetched : found ≠ [] → ∃ result,
    StoryIndex.Asks s.server s.requests c.indexUrls asked result ∧ known = result.toOption.getD none
  /-- Trials of the strategies for a running Storybook, cut off or not, are part of a history. -/
  trial : ∀ strategy ∈ Strategy.live, strategy.isApplicable c s'.files = true → ∀ limit,
    Uses c s (found ++ (c.indexGiven limit s').toList) (Selection.behaviour c limit strategy s').2
  /-- So are whole runs, with the answers that they get. -/
  run : ∀ (plan : ExtractionPlan) (time clock : Binary64) (trouble : Snapshot.Trouble)
    (store : CatalogStore),
    Uses c s (found ++ plan.indexesGiven c s') (plan.run c time clock trouble store s').2.2

/-- **One index.** However often and by whom the index is asked for, it is requested at most once
under each name, and everyone gets the same. -/
theorem Uses.sharesIndex (h : Uses c s found s') (hs : s.liveIndex = .unknown) :
    ∃ asked known, SharesIndex c s found s' asked known := by
  rcases h.asked_or_not hs with ⟨rfl, hserving⟩ | ⟨asked, result, hasks, hserving, hfound⟩
  · have hrequests : s'.requests = s.requests := congrArg (·.2.1) hserving
    refine ⟨[], none, ?_⟩
    exact {
      requests_eq := by rw [hrequests, List.append_nil]
      inTurn := List.nil_prefix
      declined := fun hlength ↦ absurd hlength (by simp)
      same := fun index hindex ↦ absurd hindex List.not_mem_nil
      fetched := fun hne ↦ absurd rfl hne
      trial := fun strategy hlive happlies limit ↦ h.trial hlive happlies limit
      run := h.run }
  · refine ⟨asked, result.toOption.getD none, ?_⟩
    exact {
      requests_eq := congrArg (·.2.1) hserving
      inTurn := hasks.isPrefix
      declined := by
        intro hlength
        obtain ⟨first, second, more, rfl⟩ :
            ∃ first second more, asked = first :: second :: more := by
          match asked, hlength with
          | first :: second :: more, _ => exact ⟨first, second, more, rfl⟩
        cases hurls : c.indexUrls with
        | nil =>
          rw [hurls] at hasks
          cases hasks
        | cons url rest =>
          rw [hurls] at hasks
          exact ⟨url, rfl, hasks.declines⟩
      same := hfound
      fetched := fun _ ↦ ⟨result, hasks, rfl⟩
      trial := fun strategy hlive happlies limit ↦ h.trial hlive happlies limit
      run := h.run }

/-! ### A server that is slow to answer -/

/-- The bytes of an index with one story. -/
def indexOfOne : Bytes :=
  (Text.ofString "\x7b\"entries\":\x7b\"a\":\x7b\x7d\x7d\x7d").flatMap Utf8.encodeCodePoint

/-- A session with a server that leaves the first request unanswered, and a page whose story never
settles. -/
def slowSession : Session where
  files := ⟨⟨"/", []⟩, []⟩
  now := .secondOfJanuary
  server := .ofServer fun before _ ↦
    if before.isEmpty then .timedOut else .answered ⟨200, [], indexOfOne⟩
  requests := []
  page := some (.ofPage ⟨true, true, fun _ ↦ .hangs⟩)
  calls := []
  liveIndex := .unknown
  remaining := none

/-- The context of the session. -/
def slowContext : ExtractionContext where
  projectRoot := ⟨"/", []⟩
  sourceDirectory := none
  outputDirectory := none
  serverUrl := some "http://h"
  hasParser := false
  hasBrowser := true
  pageLimit := .int 30
  storyLimit := .int 5
  indexLimit := .int 10
  headless := true
  requiresSource := false

/-- Introspection is cut off while it waits for the story, the strategy that makes do with the index
goes on with the same one, and so do both in a run after that. -/
theorem Uses.sharesIndex_slow :
    ∃ found s', Uses slowContext slowSession found s' ∧ slowSession.liveIndex = .unknown ∧
      found.map Option.isSome = [true, true, true, true] ∧ s'.requests.length = 2 ∧
      ∃ asked known, SharesIndex slowContext slowSession found s' asked known := by
  have hdeepLive : Strategy.runningStorybook ∈ Strategy.live := List.mem_cons_self
  have hbasicLive : Strategy.storybookIndex ∈ Strategy.live :=
    List.mem_cons_of_mem _ List.mem_cons_self
  have hdeep :=
    (Uses.begin (c := slowContext) (s := slowSession)).trial hdeepLive rfl (some (.int 1))
  have hbasic := hdeep.trial hbasicLive rfl none
  have hrun := hbasic.run ⟨.dev, false, none, none⟩ (.ofInt 0) (.ofInt 0) .none .empty
  refine ⟨_, _, hrun, rfl, ?_, ?_, hrun.sharesIndex rfl⟩
  · decide +kernel
  · decide +kernel

end StoryCatalog
