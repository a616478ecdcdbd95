import StoryCatalog.Json.Printer
import StoryCatalog.Literal.Plain

/-!
# Actions of stories

The event handlers of a story. Arguments whose name begins with `on` or whose value is a function
are actions, and so are argument types that name an action or belong to the events; where both
say something about a key, the argument type wins.
-/

namespace StoryCatalog

/-- An event handler of a story. -/
structure StoryAction where
  name : Text
  action : Text
  description : Text
  deriving DecidableEq, Repr, Inhabited

namespace StoryAction

/-- The action as a value. -/
def toJson (a : StoryAction) : Json :=
  .object [("name", .string a.name), ("description", .string a.description),
    ("action", .string a.action)]

/-- The text of a value that counts as present, or another text. -/
def textOr (value : Json) (other : Text) : Except TooManyDigits Text :=
  if value.isTruthy then value.display else .ok other

/-- The action that a value describes under a key; whatever is missing is the key. -/
def ofJson (key : Text) (value : Json) : Except TooManyDigits StoryAction := do
  let name ← textOr (value.field "name") key
  let action ← textOr (value.field "action") key
  let description ← textOr (value.field "description") []
  return { name, action, description }

/-- Whether a key is the name of an event handler. -/
def isHandlerName (key : Text) : Bool := Text.startsWith key "on"

/-- Whether an argument type marks an action. -/
def isFlagged (config : Json) : Bool :=
  config.isObject &&
    ((config.field "action").isTruthy ||
      (match config.follow ["table", "category"] with
      | .string t => t == ("events" : Text)
      | _ => false))

/-- The action that an argument type describes. -/
def ofArgType (key : Text) (config : Json) : StoryAction :=
  let named := (config.field "action").textOrEmpty
  { name := key
    action := if named.isEmpty then key else named
    description := (config.field "description").textOrEmpty }

/-- The action of an argument, described by the argument type of the same key. -/
def ofArg (key : Text) (argTypes : Fields Json) : StoryAction :=
  { name := key
    action := key
    description := ((Json.object argTypes).follow [key, "description"]).textOrEmpty }

/-- Whether a value is the mark for a function. -/
def isFunctionMark : Json → Bool
  | .string t => t == Expression.functionMark
  | _ => false

/-- The actions that the arguments and the argument types of a story show. -/
def derive (args argTypes : Fields Json) : OrderedMap StoryAction :=
  let fromArgs := args.filterMap fun (key, value) ↦
    if isHandlerName key || isFunctionMark value then some (key, ofArg key argTypes) else none
  let fromTypes := argTypes.filterMap fun (key, config) ↦
    if isFlagged config then some (key, ofArgType key config) else none
  OrderedMap.ofList (fromArgs ++ fromTypes)

/-- The actions that argument types alone show. -/
def deriveFromTypes (argTypes : Fields Json) : OrderedMap StoryAction :=
  OrderedMap.ofList (argTypes.filterMap fun (key, config) ↦
    if isHandlerName key || isFlagged config then some (key, ofArgType key config) else none)

end StoryAction

end StoryCatalog
