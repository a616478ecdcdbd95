import StoryCatalog.Catalog.Component
import StoryCatalog.Text.Blank

/-!
# Searching catalogs

Stories by a text in their names or tags, stories by criteria, and counts. Texts are compared in
lower case; a tag that is asked for has to be there as it is.
-/

namespace StoryCatalog

namespace StoryRecord

/-- Whether a text in lower case stands in the lower-case form of another one. -/
def holdsFolded (t needle : Text) : Bool := Text.holds (Text.lower t) needle

/-- Whether a text in lower case stands in a name of a story or in one of its tags. -/
def mentions (r : StoryRecord) (needle : Text) : Bool :=
  [r.title, r.name, r.kind, r.story, r.id].any (holdsFolded · needle) ||
    r.tags.any (holdsFolded · needle)

end StoryRecord

namespace Catalog

/-- The most code points of a query, blanks around it apart. -/
def longestQuery : Nat := 200

/-- Why a query is refused: it is empty or too long. -/
inductive QueryError where
  | length
  deriving DecidableEq, Repr

/-- The wording of the refusal. -/
def QueryError.message : QueryError → Text
  | .length => Text.concat ["Search query must be 1-", Text.ofNat longestQuery, " characters"]

/-- The stories that mention a query, blanks around it apart. -/
def search (c : Catalog) (query : Text) : Except QueryError (List StoryRecord) :=
  let needle := Text.strip query
  if needle.isEmpty || longestQuery < needle.length then .error .length
  else .ok (c.records.filter (·.mentions (Text.lower needle)))

/-- Criteria for stories. A criterion that is blank asks for nothing. -/
structure Filter where
  title : Option Text := none
  tag : Option Text := none
  kind : Option Text := none

namespace Filter

/-- What a criterion asks for, blanks around it apart. -/
def asked? (criterion : Option Text) : Option Text :=
  criterion.bind fun t ↦
    let stripped := Text.strip t
    if stripped.isEmpty then none else some stripped

/-- Whether a story meets a criterion, where it asks for something. -/
def meets (criterion : Option Text) (holds : Text → Bool) : Bool :=
  match asked? criterion with
  | some wanted => holds wanted
  | none => true

/-- Whether a story meets all criteria. -/
def accepts (f : Filter) (r : StoryRecord) : Bool :=
  meets f.title (fun wanted ↦ StoryRecord.holdsFolded r.title (Text.lower wanted)) &&
    meets f.tag (fun wanted ↦ r.tags.contains wanted) &&
    meets f.kind (fun wanted ↦ StoryRecord.holdsFolded r.kind (Text.lower wanted))

/-- Whether some criterion is given that is not empty. -/
def isGiven (f : Filter) : Bool :=
  [f.title, f.tag, f.kind].any fun criterion ↦ criterion.any (!·.isEmpty)

end Filter

/-- The stories that meet all criteria. -/
def filter (c : Catalog) (f : Filter) : List StoryRecord := c.records.filter f.accepts

/-- The titles of the stories, each once. -/
def titles (c : Catalog) : List Text := dedupeTags (c.records.map (·.title))

/-- The tags of the stories, each once. -/
def tags (c : Catalog) : List Text := dedupeTags (c.records.flatMap (·.tags))

/-- The counts, titles and tags of a catalog. -/
def stats (c : Catalog) : Json :=
  .object [
    ("totalStories", .nat c.size),
    ("totalComponents", .nat (dedupeTags (c.records.map (·.componentId))).length),
    ("generatedAt", .string c.generatedAt.text),
    ("extractedFrom", .string c.extractedFrom.name),
    ("storyTitles", StoryRecord.textArray c.titles),
    ("tags", StoryRecord.textArray c.tags)]

end Catalog

end StoryCatalog
