import StoryCatalog.Json.Basic
import StoryCatalog.Number.Basic
import StoryCatalog.Path

/-!
# Errors of an extraction

The errors that an extraction reports by a code. Each has a message and a context of named values;
its text is the message behind the code in brackets.
-/

namespace StoryCatalog

/-- An error of an extraction. -/
inductive ExtractionError where
  | general (message : Text) (code : Option Text) (context : Fields Json)
  | config (message : Text) (context : Fields Json)
  | sourceParse (path : Option Path) (reason : Text)
  | dependency (capability : Text) (packages : List Text)
  | index (message : Text) (source : Option Text)
  | introspection (message : Text) (storyId : Option Text)
  | timeout (operation : Text) (seconds : Number)

namespace ExtractionError

/-- A text as a value, `null` if there is none. -/
def optionalText : Option Text → Json
  | some t => .string t
  | none => .null

/-- The text of a number in a message. -/
def numberText (n : Number) : Text := (n.text?).getD []

/-- The place of a source file in messages. -/
def location (path : Option Path) : Text := (path.map Path.text).getD "<source>"

/-- What happened, in words. -/
def message : ExtractionError → Text
  | .general message _ _ => message
  | .config message _ => message
  | .sourceParse path reason => Text.concat ["Could not parse ", location path, ": ", reason]
  | .dependency capability packages =>
    Text.concat ["Capability '", capability, "' requires: ", Text.join ", " packages]
  | .index message _ => message
  | .introspection message _ => message
  | .timeout operation seconds =>
    Text.concat [operation, " timed out after ", numberText seconds, "s"]

/-- The code of an error. -/
def code? : ExtractionError → Option Text
  | .general _ code _ => code
  | .config .. => some "CONFIG"
  | .sourceParse .. => some "PARSE"
  | .dependency .. => some "DEPENDENCY"
  | .index .. => some "INDEX"
  | .introspection .. => some "INTROSPECTION"
  | .timeout .. => some "TIMEOUT"

/-- The values an error is about. -/
def context : ExtractionError → Fields Json
  | .general _ _ context => context
  | .config _ context => context
  | .sourceParse path _ => [("path", .string (location path))]
  | .dependency capability _ => [("capability", .string capability)]
  | .index _ source => [("source", optionalText source)]
  | .introspection _ storyId => [("story_id", optionalText storyId)]
  | .timeout operation _ => [("operation", .string operation)]

/-- The text of an error: its code, if it has one, and its message. -/
def text (e : ExtractionError) : Text :=
  match e.code? with
  | some code => if code.isEmpty then e.message else Text.concat ["[", code, "] ", e.message]
  | none => e.message

end ExtractionError

end StoryCatalog
