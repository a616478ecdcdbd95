import StoryCatalog.Proofs.Fields
import StoryCatalog.Proofs.Json.Printing
import StoryCatalog.Story.FromFile

/-!
# Writing the records of story files

A record of a story file can be written exactly if what the file decides on can be: title, name,
tags, arguments, argument types, parameters, description and component, besides the path of the file
itself (`Candidate.isWritable_toRecord_iff`). Whatever else the record holds is made from these.
-/

namespace StoryCatalog

/-! ### Slugs -/

theorem Text.isScalar_slugify (t : Text) : (slugify t).IsScalar := by
  intro c hc
  have hsafe := (List.mem_filter.mp hc).2
  simp only [CodePoint.isSlugSafe, CodePoint.isLowerAlphanumeric, CodePoint.isLowerAscii,
    CodePoint.isDigit, Bool.or_eq_true, Bool.and_eq_true, decide_eq_true_eq] at hsafe
  have hascii : c.val < 0x80 := by
    rcases hsafe with (hletter | hdigit) | rfl
    · omega
    · omega
    · decide
  rw [CodePoint.isSurrogate, Bool.and_eq_false_iff, decide_eq_false_iff_not]
  exact .inl (by omega)

namespace Json

/-! ### Parts of writable values -/

variable {value : Json} {fields : Fields Json}

theorem isWritable_field (h : value.IsWritable) (key : Text) : (value.field key).IsWritable :=
  ⟨everywhere_field h.1 trivial key, everywhere_field h.2 (by simp [ownTexts]) key⟩

theorem isWritable_follow (h : value.IsWritable) (path : List Text) :
    (value.follow path).IsWritable :=
  ⟨everywhere_follow h.1 trivial path, everywhere_follow h.2 (by simp [ownTexts]) path⟩

theorem isScalar_textOrEmpty (h : value.IsWritable) : value.textOrEmpty.IsScalar := by
  cases value with
  | string t => exact isWritable_string.mp h
  | _ => exact Text.isScalar_nil

theorem isScalar_key (h : (Json.object fields).IsWritable) {field : Text × Json}
    (hfield : field ∈ fields) : field.1.IsScalar :=
  (isWritable_object.mp h).1 _ (List.mem_map_of_mem hfield)

end Json

namespace StoryAction

/-! ### Actions -/

theorem isWritable_toJson {a : StoryAction} :
    a.toJson.IsWritable ↔ a.name.IsScalar ∧ a.description.IsScalar ∧ a.action.IsScalar := by
  simp [toJson]

private theorem isWritable_ofArg {argTypes : Fields Json} {key : Text} (hkey : key.IsScalar)
    (htypes : (Json.object argTypes).IsWritable) : (ofArg key argTypes).toJson.IsWritable :=
  isWritable_toJson.mpr
    ⟨hkey, Json.isScalar_textOrEmpty (Json.isWritable_follow htypes _), hkey⟩

private theorem isWritable_ofArgType {key : Text} {config : Json} (hkey : key.IsScalar)
    (hconfig : config.IsWritable) : (ofArgType key config).toJson.IsWritable := by
  refine isWritable_toJson.mpr
    ⟨hkey, Json.isScalar_textOrEmpty (Json.isWritable_field hconfig _), ?_⟩
  unfold ofArgType
  dsimp only
  split
  · exact hkey
  · exact Json.isScalar_textOrEmpty (Json.isWritable_field hconfig _)

/-- The actions of a story are writable where its arguments and argument types are. -/
theorem isWritable_derive {args argTypes : Fields Json} (hargs : (Json.object args).IsWritable)
    (htypes : (Json.object argTypes).IsWritable) :
    (Json.object ((derive args argTypes).fields.mapValues toJson)).IsWritable := by
  have hactions : ∀ entry ∈ (derive args argTypes).fields,
      entry.1.IsScalar ∧ entry.2.toJson.IsWritable := by
    intro entry hentry
    rcases List.mem_append.mp (Fields.mem_ofList hentry) with hmem | hmem
    · obtain ⟨⟨key, value⟩, harg, hsome⟩ := List.mem_filterMap.mp hmem
      dsimp only at hsome
      split at hsome
      · cases hsome
        exact ⟨Json.isScalar_key hargs harg, isWritable_ofArg (Json.isScalar_key hargs harg) htypes⟩
      · cases hsome
    · obtain ⟨⟨key, config⟩, htype, hsome⟩ := List.mem_filterMap.mp hmem
      dsimp only at hsome
      split at hsome
      · cases hsome
        exact ⟨Json.isScalar_key htypes htype, isWritable_ofArgType (Json.isScalar_key htypes htype)
          ((Json.isWritable_object.mp htypes).2 _ htype)⟩
      · cases hsome
  rw [Json.isWritable_object]
  constructor
  · intro key hkey
    rw [Fields.keys_mapValues] at hkey
    obtain ⟨entry, hentry, rfl⟩ := List.mem_map.mp hkey
    exact (hactions entry hentry).1
  · intro field hfield
    obtain ⟨entry, hentry, rfl⟩ := List.mem_map.mp hfield
    exact (hactions entry hentry).2

end StoryAction

namespace StoryRecord

/-! ### Records -/

/-- What a story file decides on in a record can be written. -/
structure IsWritable (r : StoryRecord) : Prop where
  title : r.title.IsScalar
  name : r.name.IsScalar
  importPath : r.importPath.IsScalar
  tags : ∀ tag ∈ r.tags, tag.IsScalar
  args : (Json.object r.args).IsWritable
  argTypes : (Json.object r.argTypes).IsWritable
  parameters : (Json.object r.parameters).IsWritable
  description : r.docs.description.IsScalar
  component : r.component.IsWritable

theorem isWritable_textArray {texts : List Text} :
    (textArray texts).IsWritable ↔ ∀ t ∈ texts, t.IsScalar := by
  rw [textArray, Json.isWritable_array]
  simp

end StoryRecord

theorem StoryDocs.isWritable_toJson {d : StoryDocs} :
    d.toJson.IsWritable ↔ d.description.IsScalar ∧ d.sourceCode.IsScalar ∧ d.mdx.IsScalar := by
  simp [toJson]

namespace StoryRecord

variable {r : StoryRecord}

/-- What can be written of a record is in particular what a story file decides on. -/
theorem isWritable_of_toJson (h : r.toJson.IsWritable) : r.IsWritable := by
  simp only [toJson, Json.isWritable_object_cons, Json.isWritable_string, isWritable_textArray,
    StoryDocs.isWritable_toJson, Text.isScalar_ofString, true_and, and_true,
    Json.isWritable_object_nil] at h
  obtain ⟨-, htitle, hname, -, -, himport, -, htags, hargs, -, htypes, hparameters, -, hdocs, -,
    hcomponent⟩ := h
  exact ⟨htitle, hname, himport, htags, hargs, htypes, hparameters, hdocs.1, hcomponent⟩

end StoryRecord

namespace Candidate

variable {c : Candidate} {info : MetaObject} {importPath source : Text}

/-- A record of a story file is written exactly if what the file decides on is writable. -/
theorem isWritable_toRecord (hsource : source.IsScalar) :
    (c.toRecord info importPath source).toJson.IsWritable ↔
      (c.toRecord info importPath source).IsWritable := by
  refine ⟨StoryRecord.isWritable_of_toJson, ?_⟩
  intro h
  have hid : (c.toRecord info importPath source).id.IsScalar := Text.isScalar_slugify _
  have hactions := StoryAction.isWritable_derive h.args h.argTypes
  have hmdx : (c.toRecord info importPath source).docs.mdx.IsScalar :=
    Json.isScalar_textOrEmpty (Json.isWritable_follow h.parameters _)
  simp only [StoryRecord.toJson, Json.isWritable_object_cons, Json.isWritable_string,
    StoryRecord.isWritable_textArray, StoryDocs.isWritable_toJson, Text.isScalar_ofString,
    true_and, and_true, Json.isWritable_object_nil]
  exact ⟨hid, h.title, h.name, h.title, h.name, h.importPath, Text.isScalar_ofString "story",
    h.tags, h.args, h.args, h.argTypes, h.parameters, hactions, ⟨h.description, hsource, hmdx⟩,
    hsource, h.component⟩

end Candidate

end StoryCatalog
