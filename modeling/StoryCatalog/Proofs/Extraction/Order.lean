import StoryCatalog.Proofs.Extraction.Persistence
import StoryCatalog.Proofs.Extraction.Selection

/-!
# The order in which strategies are tried

A selection goes through its strategies one by one, each in the session that the one before has
left. It stops at the first one that contributes a catalog or finds the configuration at fault, and
has an attempt to show for every strategy up to there (`Selection.exists_tries`). The work of
the others is not so much as begun: it might as well be any other work.
-/

namespace StoryCatalog

namespace Behaviour

/-- A behaviour after which the next strategy is tried. -/
def PassesOn (b : Behaviour) : Prop := b.contribution? = none ∧ ∀ error, b ≠ .misconfigured error

/-- The status of an attempt and its count of stories tell how the strategy behaved. -/
inductive Shows : Behaviour → AttemptStatus → Nat → Prop where
  | skipped : Shows .inapplicable .skipped 0
  | nothing : Shows (.returned none) .empty 0
  | noStory {c : Catalog} : c.size = 0 → Shows (.returned (some c)) .empty 0
  | stories {c : Catalog} : c.size ≠ 0 → Shows (.returned (some c)) .succeeded c.size
  | failed (failure : Failure) : Shows (.failed failure) .failed 0
  | timedOut (error : ExtractionError) : Shows (.timedOut error) .timedOut 0
  | overran : Shows .overran .timedOut 0

variable {b : Behaviour} {name : Text} {limit : Option Number}

/-- A behaviour that passes on comes to an attempt without a catalog. -/
theorem attempt_of_passesOn (name : Text) (limit : Option Number) (h : b.PassesOn) :
    ∃ attempt : Attempt, b.attempt name limit = .ok (attempt, none) ∧ attempt.name = name ∧
      b.Shows attempt.status attempt.stories := by
  obtain ⟨hnone, hconfig⟩ := h
  cases b with
  | inapplicable => exact ⟨_, rfl, rfl, .skipped⟩
  | returned found =>
    cases found with
    | none => exact ⟨_, rfl, rfl, .nothing⟩
    | some catalog =>
      have hsize : catalog.size = 0 := by
        by_contra hsize
        rw [contribution?, if_neg hsize] at hnone
        cases hnone
      refine ⟨{ name, status := .empty }, ?_, rfl, .noStory hsize⟩
      rw [attempt, if_pos hsize]
  | misconfigured error => exact absurd rfl (hconfig error)
  | failed failure => exact ⟨_, rfl, rfl, .failed failure⟩
  | timedOut error => exact ⟨_, rfl, rfl, .timedOut error⟩
  | overran => exact ⟨_, rfl, rfl, .overran⟩

/-- No attempt at a strategy that passes on has succeeded. -/
theorem Shows.ne_succeeded {status : AttemptStatus} {stories : Nat} (h : b.Shows status stories)
    (hpasses : b.PassesOn) : status ≠ .succeeded := by
  cases h with
  | stories hsize =>
    have hnone := hpasses.1
    rw [contribution?, if_neg hsize] at hnone
    cases hnone
  | _ => simp

/-- A behaviour passes on, contributes a catalog, or tells of a fault in the configuration. -/
theorem passesOn_or (b : Behaviour) :
    b.PassesOn ∨ (∃ catalog, b = .returned (some catalog) ∧ catalog.size ≠ 0) ∨
      ∃ error, b = .misconfigured error := by
  by_cases hconfig : ∃ error, b = .misconfigured error
  · exact .inr (.inr hconfig)
  · cases hcontribution : b.contribution? with
    | none => exact .inl ⟨hcontribution, fun error herror ↦ hconfig ⟨error, herror⟩⟩
    | some catalog =>
      refine .inr (.inl ⟨catalog, ?_⟩)
      unfold contribution? at hcontribution
      split at hcontribution
      · split at hcontribution
        · cases hcontribution
        · next hsize =>
          cases hcontribution
          exact ⟨rfl, hsize⟩
      · cases hcontribution

/-- A behaviour whose attempt comes with no catalog passes on. -/
theorem passesOn_of_attempt {attempt : Attempt} (h : b.attempt name limit = .ok (attempt, none)) :
    b.PassesOn := by
  rcases passesOn_or b with hpasses | ⟨catalog, rfl, hsize⟩ | ⟨error, rfl⟩
  · exact hpasses
  · rw [Behaviour.attempt, if_neg hsize] at h
    cases h
  · cases h

/-- Work that has been begun does not show as inapplicable. -/
theorem ofResult_ne_inapplicable (r : Except Interruption (Option Catalog)) :
    ofResult r ≠ .inapplicable := by
  unfold ofResult
  split <;> simp

end Behaviour

/-- Only the last attempt may have succeeded. It has if there is a catalog, and counts its
stories. -/
def Outcome.SucceedsLast (o : Outcome) : Prop :=
  match o.catalog with
  | none => ∀ attempt ∈ o.attempts, attempt.status ≠ .succeeded
  | some catalog => ∃ before last, o.attempts = before ++ [last] ∧
      (∀ attempt ∈ before, attempt.status ≠ .succeeded) ∧
      last.status = .succeeded ∧ last.stories = catalog.size

namespace Selection

variable {c : ExtractionContext} {limit : Option Number} {strategies tried untried : List Strategy}
  {s s' : Session}

/-- A strategy that was tried, and how it behaved. -/
abbrev Trial := Strategy × Behaviour

/-- How strategies behave one after another, each in the session that the one before has left. -/
def trials (c : ExtractionContext) (limit : Option Number) :
    List Strategy → Session → List Trial × Session
  | [], s => ([], s)
  | strategy :: rest, s =>
    let (b, s') := behaviour c limit strategy s
    let (more, s'') := trials c limit rest s'
    ((strategy, b) :: more, s'')

/-- An attempt has the name of the strategy that was tried, and shows how it behaved. -/
def TellsOf (trial : Trial) (attempt : Attempt) : Prop :=
  attempt.name = trial.1.name ∧ trial.2.Shows attempt.status attempt.stories

/-- What a selection comes to after some trials, with these strategies left: all trials but the last
pass on, and the last one does too only if no strategy is left. -/
inductive EndsWith : List Trial → List Strategy → Except ExtractionError Outcome → Prop where
  | misconfigured {before : List Trial} {strategy : Strategy} {error : ExtractionError}
    {untried : List Strategy} : (∀ trial ∈ before, trial.2.PassesOn) →
    EndsWith (before ++ [(strategy, .misconfigured error)]) untried (.error error)
  | kept {before : List Trial} {strategy : Strategy} {catalog : Catalog}
    {attempts : List Attempt} {last : Attempt} {untried : List Strategy} :
    (∀ trial ∈ before, trial.2.PassesOn) → catalog.size ≠ 0 →
    List.Forall₂ TellsOf before attempts → TellsOf (strategy, .returned (some catalog)) last →
    EndsWith (before ++ [(strategy, .returned (some catalog))]) untried
      (.ok ⟨some catalog, attempts ++ [last]⟩)
  | exhausted {all : List Trial} {attempts : List Attempt} :
    (∀ trial ∈ all, trial.2.PassesOn) → List.Forall₂ TellsOf all attempts →
    EndsWith all [] (.ok ⟨none, attempts⟩)

/-- In the place of a strategy that was tried stands the strategy itself, or one of the same name
that does not apply where the strategy did not. -/
def StandsFor (trial : Trial) (strategy : Strategy) : Prop :=
  strategy = trial.1 ∨ trial.2 = .inapplicable ∧ strategy.name = trial.1.name ∧
    strategy.isApplicable = trial.1.isApplicable

/-- A selection that tries some strategies and not the others. -/
structure Tries (c : ExtractionContext) (limit : Option Number) (tried untried : List Strategy)
    (s : Session) : Prop where
  ends : EndsWith (trials c limit tried s).1 untried (select c limit (tried ++ untried) s).1
  session : (select c limit (tried ++ untried) s).2 = (trials c limit tried s).2
  succeedsLast : ∀ o, (select c limit (tried ++ untried) s).1 = .ok o → o.SucceedsLast
  /-- It is the same selection with other work in the place of the work that is not begun. -/
  spares : ∀ tried' untried' : List Strategy,
    List.Forall₂ StandsFor (trials c limit tried s).1 tried' →
    ((∀ trial ∈ (trials c limit tried s).1, trial.2.PassesOn) → untried' = untried) →
    select c limit (tried' ++ untried') s = select c limit (tried ++ untried) s

theorem trials_append (xs ys : List Strategy) (s : Session) :
    trials c limit (xs ++ ys) s =
      ((trials c limit xs s).1 ++ (trials c limit ys (trials c limit xs s).2).1,
        (trials c limit ys (trials c limit xs s).2).2) := by
  induction xs generalizing s with
  | nil => rfl
  | cons strategy rest ih =>
    rw [List.cons_append, trials, trials]
    dsimp only
    rw [ih]
    rfl

@[simp] theorem length_trials (strategies : List Strategy) (s : Session) :
    (trials c limit strategies s).1.length = strategies.length := by
  induction strategies generalizing s with
  | nil => rfl
  | cons strategy rest ih => exact congrArg (· + 1) (ih _)

/-- Strategies that pass on are tried one after another, each for one attempt. -/
theorem tryAll_append_of_passesOn (acc : List Attempt) (rest : List Strategy) (s : Session)
    (h : ∀ trial ∈ (trials c limit tried s).1, trial.2.PassesOn) :
    ∃ attempts, List.Forall₂ TellsOf (trials c limit tried s).1 attempts ∧
      tryAll c limit acc (tried ++ rest) s =
        tryAll c limit (acc ++ attempts) rest (trials c limit tried s).2 := by
  induction tried generalizing acc s with
  | nil => exact ⟨[], .nil, by rw [List.append_nil]; rfl⟩
  | cons strategy more ih =>
    rw [trials] at h ⊢
    dsimp only at h ⊢
    rw [List.forall_mem_cons] at h
    obtain ⟨hfirst, hmore⟩ := h
    obtain ⟨attempt, hattempt, hname, hshows⟩ :=
      Behaviour.attempt_of_passesOn strategy.name limit hfirst
    obtain ⟨attempts, htell, htry⟩ := ih (acc ++ [attempt]) _ hmore
    refine ⟨attempt :: attempts, .cons ⟨hname, hshows⟩ htell, ?_⟩
    rw [List.cons_append, tryAll]
    dsimp only
    rw [hattempt]
    dsimp only
    rw [htry, List.append_assoc, List.singleton_append]

/-- Either all strategies pass on, or there is a first one that does not. -/
theorem exists_first (c : ExtractionContext) (limit : Option Number) (strategies : List Strategy)
    (s : Session) :
    (∀ trial ∈ (trials c limit strategies s).1, trial.2.PassesOn) ∨
      ∃ before strategy after, strategies = before ++ [strategy] ++ after ∧
        (∀ trial ∈ (trials c limit before s).1, trial.2.PassesOn) ∧
        ¬ (behaviour c limit strategy (trials c limit before s).2).1.PassesOn := by
  induction strategies generalizing s with
  | nil => exact .inl fun trial h ↦ absurd h List.not_mem_nil
  | cons strategy rest ih =>
    by_cases hfirst : (behaviour c limit strategy s).1.PassesOn
    · rcases ih (behaviour c limit strategy s).2 with hall | ⟨before, other, after, rfl, hb, ho⟩
      · exact .inl (List.forall_mem_cons.mpr ⟨hfirst, hall⟩)
      · exact .inr ⟨strategy :: before, other, after, rfl,
          List.forall_mem_cons.mpr ⟨hfirst, hb⟩, ho⟩
    · exact .inr ⟨[], strategy, rest, rfl, fun trial h ↦ absurd h List.not_mem_nil, hfirst⟩

/-- What stands for a strategy that was tried behaves as it did. -/
theorem behaviour_of_standsFor {strategy other : Strategy}
    (h : StandsFor (strategy, (behaviour c limit strategy s).1) other) :
    other.name = strategy.name ∧ behaviour c limit other s = behaviour c limit strategy s := by
  rcases h with rfl | ⟨hinapplicable, hname, happlicable⟩
  · exact ⟨rfl, rfl⟩
  · dsimp only at hinapplicable hname happlicable
    have hnot : ¬ strategy.isApplicable c s.files := by
      intro happlies
      rw [behaviour, if_pos happlies] at hinapplicable
      exact Behaviour.ofResult_ne_inapplicable _ hinapplicable
    refine ⟨hname, ?_⟩
    rw [behaviour, behaviour, if_neg hnot, happlicable, if_neg hnot]

/-- Other work in the place of the work that is not begun makes no difference. -/
theorem tryAll_of_standsFor {tried' untried' : List Strategy} (acc : List Attempt)
    (htried : List.Forall₂ StandsFor (trials c limit tried s).1 tried')
    (huntried : (∀ trial ∈ (trials c limit tried s).1, trial.2.PassesOn) → untried' = untried) :
    tryAll c limit acc (tried' ++ untried') s = tryAll c limit acc (tried ++ untried) s := by
  induction tried generalizing acc s tried' with
  | nil =>
    cases htried
    rw [huntried fun trial h ↦ absurd h List.not_mem_nil]
  | cons strategy more ih =>
    rw [trials] at htried huntried
    dsimp only at htried huntried
    cases htried with
    | cons hfirst hmore =>
      next other others =>
      obtain ⟨hname, hbehaviour⟩ := behaviour_of_standsFor hfirst
      rw [List.cons_append, List.cons_append, tryAll, tryAll, hbehaviour, hname]
      dsimp only
      split
      · rfl
      · rfl
      · next attempt hattempt =>
        refine ih _ hmore fun hpass ↦ huntried (List.forall_mem_cons.mpr ⟨?_, hpass⟩)
        exact Behaviour.passesOn_of_attempt hattempt

/-- Attempts at strategies that pass on have not succeeded. -/
theorem ne_succeeded_of_passesOn {trials : List Trial} {attempts : List Attempt}
    (h : List.Forall₂ TellsOf trials attempts) (hpasses : ∀ trial ∈ trials, trial.2.PassesOn) :
    ∀ attempt ∈ attempts, attempt.status ≠ .succeeded := by
  induction h with
  | nil => exact fun attempt h ↦ absurd h List.not_mem_nil
  | cons hfirst hrest ih =>
    rw [List.forall_mem_cons] at hpasses ⊢
    exact ⟨hfirst.2.ne_succeeded hpasses.1, ih hpasses.2⟩

/-- Whatever a selection comes to, only the last attempt may have succeeded. -/
theorem EndsWith.succeedsLast {trials : List Trial} {o : Outcome}
    (h : EndsWith trials untried (.ok o)) : o.SucceedsLast := by
  cases h with
  | kept hpasses hsize htell hlast =>
    refine ⟨_, _, rfl, ne_succeeded_of_passesOn htell hpasses, ?_⟩
    obtain ⟨-, hshows⟩ := hlast
    dsimp only at hshows
    generalize Attempt.status _ = status at hshows ⊢
    generalize Attempt.stories _ = stories at hshows ⊢
    cases hshows with
    | noStory hnone => exact absurd hnone hsize
    | stories _ => exact ⟨rfl, rfl⟩
  | exhausted hpasses htell => exact ne_succeeded_of_passesOn htell hpasses

/-- There is an attempt for every trial. -/
theorem EndsWith.length_attempts {trials : List Trial} {o : Outcome}
    (h : EndsWith trials untried (.ok o)) : o.attempts.length = trials.length := by
  cases h with
  | kept hpasses hsize htell hlast =>
    rw [List.length_append, List.length_append, htell.length_eq]
    rfl
  | exhausted hpasses htell => exact htell.length_eq.symm

/-- The first strategy that does not pass on ends the selection. -/
theorem endsWith_tryAll {before : List Strategy} {strategy : Strategy} (after : List Strategy)
    (hbefore : ∀ trial ∈ (trials c limit before s).1, trial.2.PassesOn)
    (hstops : ¬ (behaviour c limit strategy (trials c limit before s).2).1.PassesOn) :
    EndsWith (trials c limit (before ++ [strategy]) s).1 after
      (tryAll c limit [] (before ++ [strategy] ++ after) s).1 ∧
    (tryAll c limit [] (before ++ [strategy] ++ after) s).2 =
      (trials c limit (before ++ [strategy]) s).2 := by
  obtain ⟨attempts, htell, htry⟩ :=
    tryAll_append_of_passesOn [] (strategy :: after) s hbefore
  rw [List.append_assoc, List.singleton_append, htry, trials_append, List.nil_append, tryAll]
  dsimp only [trials]
  rcases Behaviour.passesOn_or (behaviour c limit strategy (trials c limit before s).2).1 with
    hpasses | ⟨catalog, hb, hsize⟩ | ⟨error, hb⟩
  · exact absurd hpasses hstops
  · rw [hb, Behaviour.attempt, if_neg hsize]
    exact ⟨.kept hbefore hsize htell ⟨rfl, .stories hsize⟩, rfl⟩
  · rw [hb]
    exact ⟨.misconfigured hbefore, rfl⟩

/-- In a valid context it is enough to look at how the trials end. -/
theorem Tries.of_tryAll (hvalid : c.validate s.files = .ok ())
    (hends : EndsWith (trials c limit tried s).1 untried
      (tryAll c limit [] (tried ++ untried) s).1)
    (hsession : (tryAll c limit [] (tried ++ untried) s).2 = (trials c limit tried s).2) :
    Tries c limit tried untried s := by
  have hselect : ∀ all, select c limit all s = tryAll c limit [] all s := by
    intro all
    rw [select, hvalid]
  constructor
  · rw [hselect]
    exact hends
  · rw [hselect]
    exact hsession
  · intro o ho
    rw [hselect] at ho
    rw [ho] at hends
    exact hends.succeedsLast
  · intro tried' untried' htried huntried
    rw [hselect, hselect]
    exact tryAll_of_standsFor [] htried huntried

/-- **Selection law.** In a valid context a selection tries its strategies in order up to the first
one that contributes a catalog or finds the configuration at fault, or up to the end. -/
theorem exists_tries (strategies : List Strategy) (hvalid : c.validate s.files = .ok ()) :
    ∃ tried untried, strategies = tried ++ untried ∧ Tries c limit tried untried s := by
  rcases exists_first c limit strategies s with hall | ⟨before, strategy, after, rfl, hb, hstops⟩
  · refine ⟨strategies, [], (List.append_nil _).symm, ?_⟩
    obtain ⟨attempts, htell, htry⟩ := tryAll_append_of_passesOn [] [] s hall
    apply Tries.of_tryAll hvalid
    · rw [htry]
      exact .exhausted hall htell
    · rw [htry]
      rfl
  · obtain ⟨hends, hsession⟩ := endsWith_tryAll after hb hstops
    exact ⟨before ++ [strategy], after, rfl, Tries.of_tryAll hvalid hends hsession⟩

/-! ### A chain with every behaviour that passes on -/

/-- A strategy that always applies and does some work. -/
def always (name : Text) (work : Work (Option Catalog)) : Strategy :=
  ⟨name, .sourceFiles, fun _ _ ↦ true, fun _ ↦ work⟩

/-- Strategies of which only the last but one finds a story; no server makes the first inapplicable,
and the last would end in a fault of the configuration. -/
def chain : List Strategy :=
  [.storybookIndex, always "idle" (pure none),
    always "bare" (do return some (.empty .sourceFiles (← get).now)),
    always "broken" (Work.fail .tooManyDigits), always "slow" (throw .cutOff),
    always "late" (Work.fail (.extraction (.timeout "work" (.int 1)))), .sourceFiles,
    always "misconfigured" (Work.fail (.extraction (.config "" [])))]

/-- A session with one story file. -/
def sessionOfChain : Session := StoryFile.sessionOfOne "export const A=1"

/-- The statuses of the attempts, if there is an outcome. -/
def statusesOf (result : Except ExtractionError Outcome) : Option (List AttemptStatus) :=
  result.toOption.map fun o ↦ o.attempts.map (·.status)

/-- The identifiers of the stories, if a catalog is kept. -/
def keptBy (result : Except ExtractionError Outcome) : Option (List Text) :=
  (result.toOption.bind (·.catalog)).map (·.stories.keys)

/-- The chain is tried in order up to the strategy that finds the story. -/
theorem exists_tries_chain :
    StoryFile.contextOfOne.validate sessionOfChain.files = .ok () ∧
      statusesOf (select StoryFile.contextOfOne none chain sessionOfChain).1 =
        some [.skipped, .empty, .empty, .failed, .timedOut, .timedOut, .succeeded] ∧
      keptBy (select StoryFile.contextOfOne none chain sessionOfChain).1 = some [("--a" : Text)] ∧
      ∃ tried untried, chain = tried ++ untried ∧
        untried.map (·.name) = [("misconfigured" : Text)] ∧
        Tries StoryFile.contextOfOne none tried untried sessionOfChain := by
  have hvalid : StoryFile.contextOfOne.validate sessionOfChain.files = .ok () := rfl
  have hstatuses : statusesOf (select StoryFile.contextOfOne none chain sessionOfChain).1 =
      some [.skipped, .empty, .empty, .failed, .timedOut, .timedOut, .succeeded] := by
    decide +kernel
  have hkept : keptBy (select StoryFile.contextOfOne none chain sessionOfChain).1 =
      some [("--a" : Text)] := by decide +kernel
  obtain ⟨tried, untried, hchain, htries⟩ := exists_tries chain hvalid
  refine ⟨hvalid, hstatuses, hkept, tried, untried, hchain, ?_, htries⟩
  have hends := htries.ends
  rw [← hchain] at hends
  cases hresult : (select StoryFile.contextOfOne none chain sessionOfChain).1 with
  | error error =>
    rw [hresult] at hstatuses
    cases hstatuses
  | ok o =>
    rw [hresult] at hends hstatuses
    have hattempts : o.attempts.length = 7 := by
      have h := congrArg List.length (Option.some.inj hstatuses)
      rwa [List.length_map] at h
    have hlength : tried.length = 7 := by
      rw [← @length_trials StoryFile.contextOfOne none tried sessionOfChain,
        ← hends.length_attempts, hattempts]
    have huntried : untried = chain.drop 7 := by
      rw [hchain, List.drop_append_of_le_length hlength.ge, ← hlength, List.drop_length,
        List.nil_append]
    rw [huntried]
    rfl

end Selection

end StoryCatalog
