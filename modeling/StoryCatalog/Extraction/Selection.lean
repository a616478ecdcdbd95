import StoryCatalog.Extraction.Strategy

/-!
# Selection of a strategy

Strategies are tried in order until one comes back with a story; what became of each is kept. An
error of the configuration ends the selection, any other only the attempt. Main statements: what an
attempt is told from how its strategy behaved (`Behaviour.attempt`), and the attempts of an outcome
name its strategy (`Outcome.strategy?`).
-/

namespace StoryCatalog

/-- What became of a strategy. -/
inductive AttemptStatus where
  | skipped
  | empty
  | succeeded
  | timedOut
  | failed
  deriving DecidableEq, Repr

/-- The word for a status. -/
def AttemptStatus.name : AttemptStatus → Text
  | .skipped => "skipped"
  | .empty => "empty"
  | .succeeded => "succeeded"
  | .timedOut => "timed_out"
  | .failed => "failed"

/-- A strategy that was tried, and what became of it. -/
structure Attempt where
  name : Text
  status : AttemptStatus
  stories : Nat := 0
  detail : Text := []

/-- What a selection comes to: the catalog of the strategy that gave one, and all attempts. -/
structure Outcome where
  catalog : Option Catalog
  attempts : List Attempt

namespace Outcome

/-- Whether there is a catalog. -/
def hasSucceeded (o : Outcome) : Bool := o.catalog.isSome

/-- The name of the first strategy that has succeeded. -/
def strategy? (o : Outcome) : Option Text :=
  (o.attempts.find? (·.status == .succeeded)).map (·.name)

end Outcome

/-- How a strategy behaves when it is tried. It may be cut off by the limit of the run, or end with
a timeout of its own. -/
inductive Behaviour where
  | inapplicable
  | returned (catalog : Option Catalog)
  | misconfigured (error : ExtractionError)
  | failed (failure : Failure)
  | timedOut (error : ExtractionError)
  | overran

namespace Behaviour

/-- The limit of a run in messages. -/
def limitOf (limit : Option Number) : Number := limit.getD (.int 0)

/-- The attempt that a behaviour of a strategy is, and the catalog that it gives; an error of the
configuration is no attempt. -/
def attempt (name : Text) (limit : Option Number) :
    Behaviour → Except ExtractionError (Attempt × Option Catalog)
  | .inapplicable => .ok ({ name, status := .skipped }, none)
  | .returned none => .ok ({ name, status := .empty }, none)
  | .returned (some c) =>
    if c.size = 0 then .ok ({ name, status := .empty }, none)
    else .ok ({ name, status := .succeeded, stories := c.size }, some c)
  | .misconfigured error => .error error
  | .failed failure => .ok ({ name, status := .failed, detail := failure.text }, none)
  | .timedOut error => .ok ({ name, status := .timedOut, detail := error.text }, none)
  | .overran =>
    let error := ExtractionError.timeout name (limitOf limit)
    .ok ({ name, status := .timedOut, detail := error.text }, none)

/-- The behaviour that the result of a piece of work shows. -/
def ofResult : Except Interruption (Option Catalog) → Behaviour
  | .ok catalog => .returned catalog
  | .error .cutOff => .overran
  | .error (.failed (.extraction (.config message context))) =>
    .misconfigured (.config message context)
  | .error (.failed (.extraction (.timeout operation seconds))) =>
    .timedOut (.timeout operation seconds)
  | .error (.failed failure) => .failed failure

end Behaviour

namespace Selection

/-- How a strategy behaves in a session, and the session afterwards. -/
def behaviour (c : ExtractionContext) (limit : Option Number) (strategy : Strategy) (s : Session) :
    Behaviour × Session :=
  if strategy.isApplicable c s.files then
    let (result, s') := (Work.limited limit (strategy.extract c)).perform s
    (Behaviour.ofResult result, s')
  else (.inapplicable, s)

/-- Tries strategies in order after some attempts. -/
def tryAll (c : ExtractionContext) (limit : Option Number) (attempts : List Attempt) :
    List Strategy → Session → Except ExtractionError Outcome × Session
  | [], s => (.ok ⟨none, attempts⟩, s)
  | strategy :: rest, s =>
    let (behaviour, s') := behaviour c limit strategy s
    match behaviour.attempt strategy.name limit with
    | .error error => (.error error, s')
    | .ok (attempt, some catalog) => (.ok ⟨some catalog, attempts ++ [attempt]⟩, s')
    | .ok (attempt, none) => tryAll c limit (attempts ++ [attempt]) rest s'

/-- Tries strategies in order, if the directories that they depend on are there. -/
def select (c : ExtractionContext) (limit : Option Number) (strategies : List Strategy)
    (s : Session) : Except ExtractionError Outcome × Session :=
  match c.validate s.files with
  | .error error => (.error error, s)
  | .ok () => tryAll c limit [] strategies s

end Selection

end StoryCatalog
