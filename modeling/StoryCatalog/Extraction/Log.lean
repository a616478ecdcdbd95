import StoryCatalog.Json.Basic

/-!
# Events of attempts

What is logged about the attempts of a selection: that a strategy was started, skipped, or finished
after some seconds. Anything but a success is a warning.
-/

namespace StoryCatalog

/-- The weight of an event. -/
inductive LogLevel where
  | info
  | warning
  deriving DecidableEq, Repr

/-- The word for a level. -/
def LogLevel.name : LogLevel → Text
  | .info => "info"
  | .warning => "warning"

/-- Something that is logged, with named values. -/
structure LogEvent where
  level : LogLevel
  name : Text
  fields : Fields Json

/-- An attempt that has been started: what is known of it, the time of its start included. -/
structure StartedAttempt where
  known : Fields Json

namespace StartedAttempt

/-- The decimal places to which durations are logged. -/
def durationPlaces : Nat := 3

/-- An attempt of a strategy that starts at a time, with more that is known of it. -/
def start (strategy : Text) (clock : Binary64) (more : Fields Json) : StartedAttempt :=
  ⟨Fields.merge [("strategy", .string strategy), ("started", .number (.float clock))] more⟩

/-- The event of a start. -/
def startEvent (strategy : Text) (more : Fields Json) : LogEvent :=
  ⟨.info, "strategy_started", Fields.merge [("strategy", .string strategy)] more⟩

/-- The seconds that an attempt has taken at a time. -/
def duration (a : StartedAttempt) (clock : Binary64) : Binary64 :=
  match Fields.get? a.known "started" with
  | some (.number n) => clock.sub n.toBinary64
  | _ => clock

/-- The values about an error, which is given by its text and its kind. -/
def errorFields : Option (Text × Text) → Fields Json
  | some (text, kind) => [("error", .string text), ("error_type", .string kind)]
  | none => []

/-- The event of the end of an attempt. -/
def finishEvent (a : StartedAttempt) (clock : Binary64) (status : Text) (stories : Nat)
    (error : Option (Text × Text)) : LogEvent :=
  let seconds := (a.duration clock).roundPlaces durationPlaces
  let fields : Fields Json :=
    [("strategy", (Fields.get? a.known "strategy").getD .null), ("status", .string status),
      ("stories", .nat stories), ("duration", .number (.float seconds))]
  ⟨if status = ("succeeded" : Text) then .info else .warning, "strategy_finished",
    fields ++ errorFields error⟩

/-- The event of a strategy that is not tried. -/
def skipEvent (strategy reason : Text) : LogEvent :=
  ⟨.info, "strategy_skipped", [("strategy", .string strategy), ("reason", .string reason)]⟩

end StartedAttempt

end StoryCatalog
