import StoryCatalog.Index.Entry

/-!
# Story indexes

The document in which a built or running Storybook lists its stories. Entries that are refused are
left out and do not spoil the others. A catalog, which has stories and their count, is no index.
-/

namespace StoryCatalog

/-- A story index. Older documents keep the entries under another key. -/
structure StoryIndex where
  version : Option Int := none
  entries : OrderedMap IndexEntry := .empty
  stories : OrderedMap IndexEntry := .empty
  deriving Inhabited

namespace StoryIndex

/-- Why a value is no story index. -/
inductive ReadError where
  | notObject
  | noEntries
  | catalog
  | faults (count : Nat)
  deriving DecidableEq, Repr

/-- The wording of the reason. -/
def ReadError.message : ReadError → Text
  | .notObject => "Story index must be a JSON object"
  | .noEntries => "Story index has neither 'entries' nor 'stories'"
  | .catalog => "Document is a catalog snapshot, not a story index"
  | .faults count => Text.concat ["Invalid story index: ", Text.ofNat count, " errors"]

/-- The entries of an object that are not refused, under their keys. -/
def validEntries (fields : Fields Json) : OrderedMap IndexEntry :=
  OrderedMap.ofList (fields.filterMap fun (key, value) ↦
    match IndexEntry.ofJson value with
    | .ok entry => some (key, entry)
    | .error _ => none)

/-- The entries under a key, where there are any. -/
def entriesOf : Option Json → Except Fault (OrderedMap IndexEntry)
  | none => .ok .empty
  | some (.object fields) => .ok (validEntries fields)
  | some _ => .error .objectType

/-- The version of a document, where there is one. -/
def versionOf : Option Json → Except Fault (Option Int)
  | none => .ok none
  | some .null => .ok none
  | some value => (Scalar.int value).map some

/-- One for a fault, else none. -/
def faultCount {α : Type} : Except Fault α → Nat
  | .ok _ => 0
  | .error _ => 1

/-- The index that the fields of a document hold. -/
def ofFields (fields : Fields Json) : Except ReadError StoryIndex :=
  let version := versionOf (Fields.get? fields "v")
  let entries := entriesOf (Fields.get? fields "entries")
  let stories := entriesOf (Fields.get? fields "stories")
  match version, entries, stories with
  | .ok version, .ok entries, .ok stories => .ok { version, entries, stories }
  | _, _, _ => .error (.faults (faultCount version + faultCount entries + faultCount stories))

/-- The index that a value holds. -/
def ofJson : Json → Except ReadError StoryIndex
  | .object fields =>
    let hasEntries := Fields.has fields "entries"
    let hasStories := Fields.has fields "stories"
    if !hasEntries && !hasStories then .error .noEntries
    else if hasStories && !hasEntries && Fields.has fields "totalStories" then .error .catalog
    else ofFields fields
  | _ => .error .notObject

/-- The entries of an index, from whichever key has some. -/
def all (index : StoryIndex) : OrderedMap IndexEntry :=
  if index.entries.fields.isEmpty then index.stories else index.entries

/-- The count of entries. -/
def size (index : StoryIndex) : Nat := index.all.size

end StoryIndex

end StoryCatalog
