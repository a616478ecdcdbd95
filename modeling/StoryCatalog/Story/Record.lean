import StoryCatalog.Story.Action

/-!
# Story records

The unit of a catalog: one story with its arguments, argument types, parameters, actions and
documentation. Records are written as JSON objects and read back from them; reading tolerates
missing and odd values, and reading what was written gives the record again.
-/

namespace StoryCatalog

/-- The texts of a list without repetitions, in the order in which they first come. -/
def dedupeTags (tags : List Text) : List Text :=
  tags.foldl (fun seen tag ↦ if seen.contains tag then seen else seen ++ [tag]) []

/-- Whether a value is no tag at all. -/
def isBlankTag : Json → Bool
  | .null => true
  | .string t => t.isEmpty
  | _ => false

/-- The tags that a value lists: the texts of the items of an array, or a single text. -/
def tagsOf : Json → Except TooManyDigits (List Text)
  | .array items => return dedupeTags (← (items.filter (!isBlankTag ·)).mapM Json.display)
  | .string t => return if t.isEmpty then [] else [t]
  | _ => .ok []

/-- The documentation of a story. -/
structure StoryDocs where
  description : Text := []
  sourceCode : Text := []
  mdx : Text := []
  deriving DecidableEq, Repr, Inhabited

namespace StoryDocs

/-- The documentation as a value. -/
def toJson (d : StoryDocs) : Json :=
  .object [("description", .string d.description), ("sourceCode", .string d.sourceCode),
    ("mdx", .string d.mdx)]

/-- The documentation that a value holds. -/
def ofJson (value : Json) : Except TooManyDigits StoryDocs := do
  let description ← StoryAction.textOr (value.field "description") []
  let sourceCode ← StoryAction.textOr (value.field "sourceCode") []
  let mdx ← StoryAction.textOr (value.field "mdx") []
  return { description, sourceCode, mdx }

end StoryDocs

/-- One story. -/
structure StoryRecord where
  id : Text
  title : Text
  name : Text
  importPath : Text := []
  type : Text := "story"
  tags : List Text := []
  args : Fields Json := []
  initialArgs : Fields Json := []
  argTypes : Fields Json := []
  parameters : Fields Json := []
  actions : OrderedMap StoryAction := .empty
  docs : StoryDocs := {}
  source : Text := []
  component : Json := .null
  deriving Inhabited

namespace StoryRecord

/-- The title under its older name. -/
def kind (r : StoryRecord) : Text := r.title

/-- The name under its older name. -/
def story (r : StoryRecord) : Text := r.name

/-- The texts as an array. -/
def textArray (texts : List Text) : Json := .array (texts.map .string)

/-- The record as a value. -/
def toJson (r : StoryRecord) : Json :=
  .object [
    ("id", .string r.id),
    ("title", .string r.title),
    ("name", .string r.name),
    ("kind", .string r.kind),
    ("story", .string r.story),
    ("importPath", .string r.importPath),
    ("type", .string r.type),
    ("tags", textArray r.tags),
    ("args", .object r.args),
    ("initialArgs", .object r.initialArgs),
    ("argTypes", .object r.argTypes),
    ("parameters", .object r.parameters),
    ("actions", .object (r.actions.fields.mapValues StoryAction.toJson)),
    ("docs", r.docs.toJson),
    ("source", .string r.source),
    ("component", r.component)]

/-- The first of two values that counts as present, as a text. -/
def firstText (value other : Json) : Except TooManyDigits Text :=
  if value.isTruthy then value.display else StoryAction.textOr other []

/-- The record that the fields of an object hold. The identifier under which the object stands
counts where it names none itself. -/
def ofJson (value : Json) (storyId : Text) : Except TooManyDigits StoryRecord := do
  let id ← StoryAction.textOr (value.field "id") storyId
  let title ← firstText (value.field "title") (value.field "kind")
  let name ← firstText (value.field "name") (value.field "story")
  let importPath ← StoryAction.textOr (value.field "importPath") []
  let type ← StoryAction.textOr (value.field "type") "story"
  let tags ← tagsOf (value.field "tags")
  let actions ← (value.field "actions").fields.mapM fun (key, action) ↦ do
    return (key, ← StoryAction.ofJson key action)
  let docs ← StoryDocs.ofJson (value.field "docs")
  let source ← StoryAction.textOr (value.field "source") []
  return {
    id, title, name, importPath, type, tags, docs, source
    args := (value.field "args").fields
    initialArgs := (value.field "initialArgs").fields
    argTypes := (value.field "argTypes").fields
    parameters := (value.field "parameters").fields
    actions := OrderedMap.ofList actions
    component := value.field "component" }

end StoryRecord

end StoryCatalog
