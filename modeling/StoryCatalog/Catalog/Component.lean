import StoryCatalog.Catalog.Basic
import StoryCatalog.Story.Usage
import StoryCatalog.Text.Slug

/-!
# Components

A component is what stories with titles of one identifier show. `Catalog.components` groups all
stories of a catalog, one story after another; `Catalog.component?` collects those of one component.
The views of a component are JSON values.
-/

namespace StoryCatalog

/-- The first of two texts that is not empty. -/
def firstNonEmpty (t other : Text) : Text := if t.isEmpty then other else t

namespace StoryRecord

/-- The identifier of the component that a story shows. -/
def componentId (r : StoryRecord) : Text := Text.componentId r.title

/-- The story in a listing. -/
def listItem (r : StoryRecord) : Json :=
  .object [("id", .string r.id), ("name", .string r.name), ("story", .string r.story)]

/-- The story in the detail of its component. -/
def detailItem (r : StoryRecord) : Json :=
  .object [
    ("id", .string r.id), ("name", .string r.name), ("story", .string r.story),
    ("args", .object r.args), ("initialArgs", .object r.initialArgs),
    ("argTypes", .object r.argTypes), ("parameters", .object r.parameters)]

/-- The story in the documentation of its component. -/
def docsItem (r : StoryRecord) : Json :=
  .object [
    ("name", .string r.name), ("description", .string r.docs.description),
    ("args", .object r.args), ("argTypes", .object r.argTypes), ("source", .string r.source)]

/-- The story among the examples of its component. -/
def exampleItem (r : StoryRecord) : Except TooManyDigits Json := do
  return .object [
    ("name", .string r.name), ("description", .string (r.story ++ (" example" : Text))),
    ("code", .string (firstNonEmpty r.source r.docs.sourceCode)),
    ("args", .object r.args), ("argTypes", .object r.argTypes), ("usage", .string (← r.usage))]

end StoryRecord

/-- A component with its stories, of which it has at least one. -/
structure Component where
  id : Text
  first : StoryRecord
  others : List StoryRecord := []

namespace Component

/-- The stories of a component, in the order of the catalog. -/
def stories (c : Component) : List StoryRecord := c.first :: c.others

/-- The tags of the stories, in the order in which they first come. -/
def tags (c : Component) : List Text := dedupeTags (c.stories.flatMap (·.tags))

/-- The arguments of all stories; of two with one name the later one counts. -/
def args (c : Component) : Fields Json :=
  c.stories.foldl (fun args story ↦ args.merge story.args) []

/-- The argument types of all stories; of two with one name the later one counts. -/
def argTypes (c : Component) : Fields Json :=
  c.stories.foldl (fun types story ↦ types.merge story.argTypes) []

/-- Everything about the component. -/
def detail (c : Component) : Json :=
  .object [
    ("id", .string c.id),
    ("name", .string c.first.title),
    ("title", .string c.first.title),
    ("kind", .string c.first.kind),
    ("importPath", .string c.first.importPath),
    ("tags", StoryRecord.textArray c.tags),
    ("stories", .array (c.stories.map StoryRecord.detailItem)),
    ("args", .object c.args),
    ("argTypes", .object c.argTypes),
    ("component", c.first.component),
    ("storyCount", .nat c.stories.length)]

/-- The documentation of the component, taken from its first story. -/
def documentation (c : Component) : Json :=
  .object [
    ("component", .string c.first.title),
    ("description", .string c.first.docs.description),
    ("mdx", .string c.first.docs.mdx),
    ("sourceCode", .string (firstNonEmpty c.first.docs.sourceCode c.first.source)),
    ("argTypes", .object c.first.argTypes),
    ("stories", .array (c.stories.map StoryRecord.docsItem)),
    ("parameters", .object c.first.parameters),
    ("tags", StoryRecord.textArray c.first.tags),
    ("importPath", .string c.first.importPath)]

/-- The code and a usage snippet of every story. -/
def examples (c : Component) : Except TooManyDigits Json := do
  return .object [
    ("component", .string c.first.title),
    ("importPath", .string c.first.importPath),
    ("sourceFile", .string ((Json.object c.first.parameters).field "fileName").textOrEmpty),
    ("examples", .array (← c.stories.mapM StoryRecord.exampleItem))]

end Component

/-- A component as a listing shows it: what its first story tells, and all its stories with their
tags. -/
structure ListedComponent where
  id : Text
  title : Text
  kind : Text
  importPath : Text
  stories : List StoryRecord := []
  tags : List Text := []

namespace ListedComponent

/-- The component that a story shows, before the story itself is listed. -/
def ofFirst (r : StoryRecord) : ListedComponent :=
  { id := r.componentId, title := r.title, kind := r.kind, importPath := r.importPath }

/-- The component with one more story; tags that it has already are not repeated. -/
def add (c : ListedComponent) (r : StoryRecord) : ListedComponent :=
  { c with stories := c.stories ++ [r], tags := dedupeTags (c.tags ++ r.tags) }

/-- The component as an item of a listing. -/
def summary (c : ListedComponent) : Json :=
  .object [
    ("id", .string c.id),
    ("name", .string c.title),
    ("title", .string c.title),
    ("kind", .string c.kind),
    ("stories", .array (c.stories.map StoryRecord.listItem)),
    ("tags", StoryRecord.textArray c.tags),
    ("importPath", .string c.importPath),
    ("storyCount", .nat c.stories.length)]

end ListedComponent

namespace Catalog

/-- The stories of the component with an identifier. -/
def storiesOf (c : Catalog) (id : Text) : List StoryRecord :=
  c.records.filter (·.componentId == id)

/-- The component with an identifier, if some story shows it. -/
def component? (c : Catalog) (id : Text) : Option Component :=
  match c.storiesOf id with
  | [] => none
  | first :: others => some { id, first, others }

/-- Components with one more story: in its component if that is known, else in a new one. -/
def addStory : List ListedComponent → StoryRecord → List ListedComponent
  | [], r => [(ListedComponent.ofFirst r).add r]
  | c :: rest, r => if c.id = r.componentId then c.add r :: rest else c :: addStory rest r

/-- The components of a catalog, in the order of their first stories. -/
def components (c : Catalog) : List ListedComponent := c.records.foldl addStory []

end Catalog

end StoryCatalog
