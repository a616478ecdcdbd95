import StoryCatalog.Index.Entry
import StoryCatalog.Story.FromFile

/-!
# Records from a story index

An index entry alone gives a record without arguments. With what a running Storybook holds of the
story, the record has its arguments, argument types, parameters, actions and documentation too.
-/

namespace StoryCatalog

namespace IndexEntry

/-- The identifier of the story: the entry's own, or the key under which the entry stands. -/
def storyId (entry : IndexEntry) (key : Text) : Text :=
  if entry.id.isEmpty then key else entry.id

/-- The tags of a record: each once, and no empty one. -/
def recordTags (entry : IndexEntry) : List Text := dedupeTags (entry.tags.filter (!·.isEmpty))

/-- The record of an entry under a key. -/
def toRecord (entry : IndexEntry) (key : Text) : StoryRecord :=
  { id := entry.storyId key
    title := entry.title
    name := entry.name
    importPath := entry.importPath
    type := entry.type
    tags := entry.recordTags
    parameters := [("fileName", .string entry.importPath)] }

/-- The tags of a story: those of the running story, or else those of its entry. -/
def runtimeTags (entry : IndexEntry) (value : Json) : Except TooManyDigits (List Text) :=
  if value.isTruthy then tagsOf value else .ok entry.recordTags

/-- The record of an entry under a key with what the running story holds. -/
def toRuntimeRecord (entry : IndexEntry) (key : Text) (data : Json) :
    Except TooManyDigits StoryRecord := do
  let args := (data.field "args").fields
  let initialArgs := (data.field "initialArgs").fields
  let argTypes := (data.field "argTypes").fields
  let parameters := Json.object (data.field "parameters").fields
  let code := (parameters.follow ["docs", "source", "code"]).textOrEmpty
  let sourceCode :=
    if code.isEmpty then (parameters.follow ["storySource", "source"]).textOrEmpty else code
  let tags ← entry.runtimeTags (data.field "tags")
  return {
    entry.toRecord key with
    tags
    args := if args.isEmpty then initialArgs else args
    initialArgs
    argTypes
    parameters := Fields.merge [("fileName", .string entry.importPath)] parameters.fields
    actions := StoryAction.deriveFromTypes argTypes
    docs :=
      { description := storyDescription [parameters]
        sourceCode
        mdx := (parameters.follow ["docs", "page"]).textOrEmpty }
    source := code
    component := parameters.follow ["component", "__docgenInfo"] }

end IndexEntry

end StoryCatalog
