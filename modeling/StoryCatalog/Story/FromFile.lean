import StoryCatalog.Story.Record
import StoryCatalog.StoryFile
import StoryCatalog.Text.Slug

/-!
# Records from story files

The records of the stories of a file. The meta object gives the title, the component and defaults;
a story object overrides them. Arguments assigned to a story win over those in its object.
-/

namespace StoryCatalog

/-- The documented description in parameter sets: of the story first, then of the component, each
from the first set that has one. -/
def storyDescription (parameterSets : List Json) : Text :=
  let found (level : Text) := parameterSets.findSome? fun parameters ↦
    match parameters.follow ["docs", "description", level] with
    | .string t => if t.isEmpty then none else some t
    | _ => none
  ((found "story").or (found "component")).getD []

/-- The meta object of a story file. -/
structure MetaObject where
  title : Text := []
  component : Option Text := none
  argTypes : Fields Json := []
  parameters : Fields Json := []
  tags : List Text := []

namespace MetaObject

/-- The meta object that an expression gives; anything but an object literal gives an empty one. -/
def ofExpression (e : Expression) : MetaObject :=
  match e.unwrap with
  | .object properties =>
    let get (key : Text) := Expression.get properties key
    { title := (get "title").plainString?.getD []
      component :=
        match (get "component").unwrap with
        | .identifier name => some name
        | _ => none
      argTypes := (get "argTypes").plainFields
      parameters := (get "parameters").plainFields
      tags := (get "tags").plainTexts }
  | _ => {}

/-- The meta object as a value. -/
def toJson (m : MetaObject) : Json :=
  .object [
    ("title", .string m.title),
    ("component", match m.component with
      | some name => .string name
      | none => .null),
    ("argTypes", .object m.argTypes),
    ("parameters", .object m.parameters),
    ("tags", StoryRecord.textArray m.tags)]

end MetaObject

namespace Candidate

/-- A property of the story object; absent if there is no object or no such property. -/
def objectProperty (c : Candidate) (key : Text) : Expression :=
  match c.storyObject? with
  | some properties => Expression.get properties key
  | none => .absent

/-- The arguments of a story. -/
def storyArgs (c : Candidate) : Fields Json :=
  if c.args.isAbsent then (c.objectProperty "args").plainFields else c.args.plainFields

/-- The name under which a story is shown: one assigned to it, one in its object, or its
export's. -/
def displayName (c : Candidate) : Text :=
  match c.storyName with
  | some name => if name.isEmpty then fromObject else name
  | none => fromObject
where
  fromObject : Text :=
    match (c.objectProperty "name").plainString? with
    | some name => if name.isEmpty then c.exportName else name
    | none => c.exportName

/-- The record of a story of a file with a meta object. -/
def toRecord (c : Candidate) (info : MetaObject) (importPath source : Text) : StoryRecord :=
  let args := c.storyArgs
  let argTypes := info.argTypes.merge (c.objectProperty "argTypes").plainFields
  let parameters := info.parameters.merge (c.objectProperty "parameters").plainFields
  { id := Text.storyId info.title c.exportName
    title := if info.title.isEmpty then "Unknown" else info.title
    name := c.displayName
    importPath
    tags := dedupeTags (info.tags ++ (c.objectProperty "tags").plainTexts)
    args
    initialArgs := args
    argTypes
    parameters
    actions := StoryAction.derive args argTypes
    docs :=
      { description := storyDescription [.object parameters, .object info.parameters]
        sourceCode := source
        mdx := ((Json.object parameters).follow ["docs", "page"]).textOrEmpty }
    source
    component :=
      match info.component with
      | some name => .string name
      | none => .null }

end Candidate

namespace StoryFile

/-- The records of the stories of a file, in the order of their exports. -/
def records (f : StoryFile) (importPath source : Text) : List StoryRecord :=
  let info := MetaObject.ofExpression f.metaExpression
  f.stories.values.map fun c ↦ c.toRecord info importPath source

end StoryFile

end StoryCatalog
