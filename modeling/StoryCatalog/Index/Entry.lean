import StoryCatalog.Json.Printer
import StoryCatalog.Json.Scalar
import StoryCatalog.Story.Record

/-!
# Entries of a story index

What a story index says about one story. An older form of the index names title and name otherwise;
scalars may stand for texts. An entry is refused with the faults of all its fields.
-/

namespace StoryCatalog

/-- One entry of a story index. -/
structure IndexEntry where
  id : Text := []
  title : Text := []
  name : Text := []
  importPath : Text := []
  type : Text := "story"
  tags : List Text := []
  deriving DecidableEq, Repr, Inhabited

namespace IndexEntry

/-- A field in which a fault was found, with the fault; the entry as a whole has no name. -/
abbrev FieldFault := Text × Fault

/-- The text of a scalar; `null` is the empty text. -/
def scalarText : Json → Except Fault Text
  | .null => .ok []
  | .string t => .ok t
  | .bool b => .ok (if b then "True" else "False")
  | .number n =>
    match n.text? with
    | some t => .ok t
    | none => .error .valueError
  | _ => .error .stringType

/-- The first of two fields that counts as present, with its value under the first one's key. -/
def withOlder (fields : Fields Json) (key older : Text) : Option Json :=
  let current := Fields.get? fields key
  match Fields.get? fields older with
  | some value =>
    if (current.getD .null).isTruthy || !value.isTruthy then current else some value
  | none => current

/-- A value that may fail on too many digits, as a field. -/
def orFault {α : Type} : Except TooManyDigits α → Except Fault α
  | .ok a => .ok a
  | .error _ => .error .valueError

/-- The text of a field that may be missing. -/
def textField (value : Option Json) : Except Fault Text :=
  match value with
  | some v => scalarText v
  | none => .ok []

/-- The import path, with the key under which it stands. -/
def importField (fields : Fields Json) : Text × Except Fault Text :=
  match Fields.get? fields "importPath" with
  | some v => ("importPath", scalarText v)
  | none => ("import_path", textField (Fields.get? fields "import_path"))

/-- The type of a story. -/
def typeField (value : Option Json) : Except Fault Text :=
  orFault (StoryAction.textOr (value.getD .null) "story")

/-- The tags of a story. -/
def tagsField (value : Option Json) : Except Fault (List Text) :=
  orFault (tagsOf (value.getD .null))

/-- The fault of a field, if it has one. -/
def faultOf {α : Type} (key : Text) : Except Fault α → List FieldFault
  | .ok _ => []
  | .error fault => [(key, fault)]

/-- The entry that the fields of an object hold, or the faults in them. -/
def ofFields (fields : Fields Json) : Except (List FieldFault) IndexEntry :=
  let id := textField (Fields.get? fields "id")
  let title := textField (withOlder fields "title" "kind")
  let name := textField (withOlder fields "name" "story")
  let (importKey, importPath) := importField fields
  let type := typeField (Fields.get? fields "type")
  let tags := tagsField (Fields.get? fields "tags")
  match id, title, name, importPath, type, tags with
  | .ok id, .ok title, .ok name, .ok importPath, .ok type, .ok tags =>
    .ok { id, title, name, importPath, type, tags }
  | _, _, _, _, _, _ =>
    .error (faultOf "id" id ++ faultOf "title" title ++ faultOf "name" name ++
      faultOf importKey importPath ++ faultOf "type" type ++ faultOf "tags" tags)

/-- The entry that a value holds, or the faults in it. -/
def ofJson : Json → Except (List FieldFault) IndexEntry
  | .object fields => ofFields fields
  | _ => .error [([], .recordType)]

end IndexEntry

end StoryCatalog
