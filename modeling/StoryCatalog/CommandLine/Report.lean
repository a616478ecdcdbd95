import StoryCatalog.CommandLine.Command
import StoryCatalog.Text.Utf8

/-!
# Reports

What a command leaves behind for its user: an exit status, output, and lines about what went wrong.
Output that cannot be written is a failure of the command (`Report.encodable`).
-/

namespace StoryCatalog

/-- How a command ends. -/
inductive ExitStatus where
  | success
  | nothingFound
  | badUse
  | diskFault
  deriving DecidableEq, Repr

/-- The number that a status is to the caller of the program. -/
def ExitStatus.code : ExitStatus → Nat
  | .success => 0
  | .nothingFound => 1
  | .badUse => 2
  | .diskFault => 3

/-- What a command leaves behind for its user. -/
structure Report where
  status : ExitStatus
  output : Text := []
  errors : List Text := []

namespace Report

/-- A line of a report, in which surrogates stand as escapes. -/
def errorLine (t : Text) : Text :=
  t.flatMap fun c ↦ if c.isSurrogate then "\\u" ++ CodePoint.hexDigits 4 c.val else [c]

/-- A report of one line about what went wrong. -/
def fault (status : ExitStatus) (line : Text) : Report := { status, errors := [errorLine line] }

/-- The report of an error in the use of a command. -/
def misuse (message : Text) : Report := fault .badUse ("Error: " ++ message)

/-- The report of a failure that no command expects. -/
def unexpected (message : Text) : Report := fault .nothingFound ("Unexpected failure: " ++ message)

/-- The report of a command that has nothing to show. -/
def nothing (message : Text) : Report := fault .nothingFound ("Error: " ++ message)

/-- The report of an error in the configuration. -/
def misconfigured (message : Text) : Report :=
  fault .badUse ("Configuration error: " ++ message)

/-- The report of some lines of output. -/
def lines (ls : List Text) : Report :=
  { status := .success, output := ls.flatMap (· ++ [CodePoint.ofChar '\n']) }

/-- A report whose output can be written: one whose output cannot is an unexpected failure. -/
def encodable (r : Report) : Report :=
  match Utf8.encode r.output with
  | .ok _ => r
  | .error fault => unexpected fault.message

/-- The report of a JSON document. -/
def document (value : Except TooManyDigits Json) : Report :=
  match value.bind (Json.print (.indented 2)) with
  | .ok t => encodable (lines [t])
  | .error fault => unexpected fault.message

/-- The report of settings that cannot be used. -/
def ofSettingsFault : SettingsFault → Report
  | .values faults =>
    misconfigured (Text.concat [Text.ofNat faults.length, " validation error",
      if faults.length = 1 then [] else "s", " for StorymetaSettings"])
  | .encoding fault => unexpected fault.message

end Report

end StoryCatalog
