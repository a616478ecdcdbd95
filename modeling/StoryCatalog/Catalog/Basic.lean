import StoryCatalog.Catalog.Provenance
import StoryCatalog.Json.Printer
import StoryCatalog.Story.Record
import StoryCatalog.Timestamp.Reader

/-!
# Catalogs

The stories that one extraction found, with the source they were extracted from and the time. A
catalog is written as a JSON document and read back from one. Reading tolerates whatever has the
stories under their key, and takes the current time where the document gives none.
-/

namespace StoryCatalog

/-- The stories of an extraction. -/
structure Catalog where
  extractedFrom : Provenance
  stories : OrderedMap StoryRecord := .empty
  generatedAt : Timestamp
  version : Text := "1.0.0"

namespace Catalog

/-- The catalog without stories. -/
def empty (source : Provenance) (now : Timestamp) : Catalog :=
  { extractedFrom := source, generatedAt := now }

/-- The count of stories. -/
def size (c : Catalog) : Nat := c.stories.size

/-- The records, in order. -/
def records (c : Catalog) : List StoryRecord := c.stories.values

/-- The catalog with a record under its identifier; an earlier one under it is replaced. -/
def add (c : Catalog) (r : StoryRecord) : Catalog := { c with stories := c.stories.insert r.id r }

/-- The catalog of records; of two with one identifier the later one counts. -/
def ofRecords (source : Provenance) (now : Timestamp) (records : List StoryRecord) : Catalog :=
  records.foldl add (empty source now)

/-- The catalog as a value. -/
def toJson (c : Catalog) : Json :=
  .object [
    ("version", .string c.version),
    ("generatedAt", .string c.generatedAt.text),
    ("extractedFrom", .string c.extractedFrom.name),
    ("totalStories", .nat c.size),
    ("stories", .object (c.stories.fields.mapValues StoryRecord.toJson))]

/-- The document of a catalog. -/
def document (layout : Json.Layout) (c : Catalog) : Except TooManyDigits Text :=
  Json.print layout c.toJson

/-- Why a value is no catalog. -/
inductive ReadError where
  | noStories
  | tooManyDigits
  deriving DecidableEq, Repr

/-- The wording of the reason. -/
def ReadError.message : ReadError → Text
  | .noStories => "Catalog document must be an object with a 'stories' mapping"
  | .tooManyDigits => TooManyDigits.message .tooManyDigits

/-- A value that fails on too many digits, as a part of a catalog. -/
def ReadError.lift {α : Type} : Except TooManyDigits α → Except ReadError α
  | .ok a => .ok a
  | .error _ => .error .tooManyDigits

/-- The stories under their key in a value, if it is an object that holds an object there or
nothing. -/
def storiesOf? : Json → Option (Fields Json)
  | .object fields =>
    match Fields.get? fields "stories" with
    | none => some []
    | some (.object stories) => some stories
    | some _ => none
  | _ => none

/-- The records of the objects among stories, under their keys. -/
def readStories (stories : Fields Json) : Except TooManyDigits (List (Text × StoryRecord)) :=
  (stories.filter (·.2.isObject)).mapM fun (key, story) ↦ do
    return (key, ← StoryRecord.ofJson story key)

/-- The time that a value gives, or another one. -/
def timeOr (now : Timestamp) : Json → Timestamp
  | .string t => (Timestamp.read? t).getD now
  | _ => now

/-- The catalog that a value holds. -/
def ofJson (now : Timestamp) (value : Json) : Except ReadError Catalog := do
  let some stories := storiesOf? value | .error .noStories
  let records ← ReadError.lift (readStories stories)
  let version ← ReadError.lift (StoryAction.textOr (value.field "version") "1.0.0")
  return {
    extractedFrom := Provenance.ofJson (value.field "extractedFrom")
    stories := OrderedMap.ofList records
    generatedAt := timeOr now (value.field "generatedAt")
    version }

end Catalog

end StoryCatalog
