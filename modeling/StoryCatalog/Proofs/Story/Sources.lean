import StoryCatalog.Index.File
import StoryCatalog.Proofs.Literal.Plain
import StoryCatalog.Proofs.Story.Restoring
import StoryCatalog.Story.FromFile
import StoryCatalog.Story.FromIndex

/-!
# Where records come from

The records of story files, of index entries and of running stories are all of the kind that is read
back from what is written.
-/

namespace StoryCatalog

/-! ### Texts of values -/

private theorem Binary64.text_ne_nil (x : Binary64) : x.text ≠ [] := by
  have hdecimal : ∀ layout digits exponent, decimalText layout digits exponent ≠ [] := by
    intro layout digits exponent
    unfold decimalText
    dsimp only
    split
    · split
      · simp
      · split <;> simp
    · simp
  cases x with
  | finite negative mantissa exponent =>
    cases negative with
    | true => simp [text, textWith]
    | false =>
      by_cases hzero : mantissa = 0
      · simp [text, textWith, hzero, Text.ofString]
      · simp [text, textWith, hzero, hdecimal]
  | infinite negative => cases negative <;> simp [text, textWith, Text.ofString]
  | nan => simp [text, textWith, Text.ofString]

namespace Json

private theorem displayInner_ne_nil {value : Json} {t : Text} (h : displayInner value = .ok t) :
    t ≠ [] := by
  rintro rfl
  cases value with
  | null => cases h
  | bool b => cases b <;> cases h
  | number n =>
    cases n with
    | int n =>
      rw [displayInner] at h
      split at h
      · have hnil := Except.ok.inj h
        unfold Text.ofInt at hnil
        split at hnil
        · cases hnil
        · exact Text.ofNat_ne_nil _ hnil
      · cases h
    | float x => exact Binary64.text_ne_nil x (Except.ok.inj h)
  | string t => cases h
  | array items =>
    rw [displayInner] at h
    cases hinner : displayItems items with
    | error e => rw [hinner] at h; cases h
    | ok inner => rw [hinner] at h; cases h
  | object fields =>
    rw [displayInner] at h
    cases hinner : displayFields fields with
    | error e => rw [hinner] at h; cases h
    | ok inner => rw [hinner] at h; cases h

/-- Only blank values have an empty text. -/
theorem display_ne_nil {value : Json} {t : Text} (hblank : isBlankTag value = false)
    (h : display value = .ok t) : t ≠ [] := by
  cases value with
  | string s =>
    rintro rfl
    cases h
    cases hblank
  | _ => exact displayInner_ne_nil h

end Json

/-- A text that has a default is not empty where the default is not. -/
theorem StoryAction.textOr_ne_nil {value : Json} {other t : Text} (hother : other ≠ [])
    (h : textOr value other = .ok t) : t ≠ [] := by
  unfold textOr at h
  split at h
  · next htruthy =>
    refine Json.display_ne_nil ?_ h
    cases value with
    | null => cases htruthy
    | string s => simpa [isBlankTag, Json.isTruthy] using htruthy
    | _ => rfl
  · cases h
    exact hother

/-- What a value lists is made of tags. -/
theorem areTags_tagsOf {value : Json} {tags : List Text} (h : tagsOf value = .ok tags) :
    AreTags tags := by
  unfold tagsOf at h
  split at h
  · next items =>
    have htexts : Yields (fun texts ↦ ∀ t ∈ texts, t ≠ [])
        ((items.filter (!isBlankTag ·)).mapM Json.display) := by
      refine .mapM fun item hitem t ht ↦ Json.display_ne_nil ?_ ht
      simpa using (List.mem_filter.mp hitem).2
    refine Yields.bind htexts (fun texts hne ↦ .ok ?_) tags h
    exact areTags_dedupeTags fun hmem ↦ hne [] hmem rfl
  · next t =>
    cases h
    split
    · exact ⟨List.nodup_nil, List.not_mem_nil⟩
    · next hne =>
      refine ⟨List.nodup_singleton t, fun hmem ↦ hne ?_⟩
      rw [← List.mem_singleton.mp hmem]
      rfl
  · cases h
    exact ⟨List.nodup_nil, List.not_mem_nil⟩

/-! ### Actions -/

namespace StoryAction

variable {args argTypes : Fields Json} {entry : Text × StoryAction}

private theorem isRestorable_ofArg (key : Text) (argTypes : Fields Json) :
    (ofArg key argTypes).IsRestorable key := ⟨fun hkey ↦ hkey, fun hkey ↦ hkey⟩

private theorem isRestorable_ofArgType (key : Text) (config : Json) :
    (ofArgType key config).IsRestorable key := by
  refine ⟨fun hkey ↦ hkey, ?_⟩
  intro haction
  unfold ofArgType at haction
  dsimp only at haction
  split at haction
  · exact haction
  · next hnamed => exact absurd (List.isEmpty_iff.mpr haction) hnamed

private theorem isRestorable_of_mem_ofArgTypes (marks : Text → Json → Bool)
    (h : entry ∈ argTypes.filterMap fun (key, config) ↦
      if marks key config then some (key, ofArgType key config) else none) :
    entry.2.IsRestorable entry.1 := by
  obtain ⟨⟨key, config⟩, -, hsome⟩ := List.mem_filterMap.mp h
  dsimp only at hsome
  split at hsome
  · cases hsome
    exact isRestorable_ofArgType key config
  · cases hsome

theorem isRestorable_of_mem_derive (h : entry ∈ (derive args argTypes).fields) :
    entry.2.IsRestorable entry.1 := by
  rcases List.mem_append.mp (Fields.mem_ofList h) with harg | htype
  · obtain ⟨⟨key, value⟩, -, hsome⟩ := List.mem_filterMap.mp harg
    dsimp only at hsome
    split at hsome
    · cases hsome
      exact isRestorable_ofArg key argTypes
    · cases hsome
  · exact isRestorable_of_mem_ofArgTypes (fun _ config ↦ isFlagged config) htype

theorem isRestorable_of_mem_deriveFromTypes (h : entry ∈ (deriveFromTypes argTypes).fields) :
    entry.2.IsRestorable entry.1 :=
  isRestorable_of_mem_ofArgTypes (fun key config ↦ isHandlerName key || isFlagged config)
    (Fields.mem_ofList h)

end StoryAction

/-! ### Story files -/

private theorem nil_not_mem_plainTexts (e : Expression) : [] ∉ e.plainTexts := by
  unfold Expression.plainTexts
  split
  · intro hmem
    obtain ⟨element, -, hsome⟩ := List.mem_filterMap.mp hmem
    split at hsome
    · next t _ =>
      split at hsome
      · cases hsome
      · next hne =>
        cases hsome
        exact hne rfl
    · cases hsome
  · exact List.not_mem_nil

namespace MetaObject

/-- What a meta object gives to records is of a form that readers give. -/
structure IsRestorable (m : MetaObject) : Prop where
  argTypes : (Json.object m.argTypes).IsProper
  parameters : (Json.object m.parameters).IsProper
  tags : [] ∉ m.tags

theorem isRestorable_ofExpression {e : Expression} (h : e.IsProper) :
    (ofExpression e).IsRestorable := by
  have hnil : (Json.object []).IsProper := Json.isProper_object.mpr ⟨List.nodup_nil, by simp⟩
  have hunwrap := Expression.isProper_unwrap h
  unfold ofExpression
  split
  · next properties hobject =>
    rw [hobject, Expression.isProper_object] at hunwrap
    have hget := fun key ↦ Expression.isProper_plainFields (Expression.isProper_get hunwrap key)
    exact ⟨hget _, hget _, nil_not_mem_plainTexts _⟩
  · exact ⟨hnil, hnil, List.not_mem_nil⟩

end MetaObject

namespace Candidate

variable {c : Candidate}

private theorem isProper_objectProperty (h : c.IsProper) (key : Text) :
    (c.objectProperty key).IsProper := by
  have hunwrap := Expression.isProper_unwrap h.1
  unfold objectProperty storyObject?
  split
  · next properties hsome =>
    split at hsome
    · next hobject =>
      cases hsome
      rw [hobject, Expression.isProper_object] at hunwrap
      exact Expression.isProper_get hunwrap key
    · cases hsome
  · exact Expression.isProper_of_numbers_eq_nil rfl

/-- The record of a story file is read back from what is written. -/
theorem isRestorable_toRecord {info : MetaObject} (h : c.IsProper) (hinfo : info.IsRestorable)
    (importPath source : Text) : (c.toRecord info importPath source).IsRestorable := by
  have hproperty := fun key ↦ Expression.isProper_plainFields (isProper_objectProperty h key)
  have hargs : (Json.object c.storyArgs).IsProper := by
    unfold storyArgs
    split
    · exact hproperty _
    · exact Expression.isProper_plainFields h.2
  have htags : [] ∉ info.tags ++ (c.objectProperty "tags").plainTexts := by
    rw [List.mem_append, not_or]
    exact ⟨hinfo.tags, nil_not_mem_plainTexts _⟩
  have hcomponent : (c.toRecord info importPath source).component.IsProper := by
    unfold toRecord
    dsimp only
    split
    · exact Json.isProper_string
    · exact Json.isProper_null
  exact
    { type := (by decide : Text.ofString "story" ≠ [])
      tags := areTags_dedupeTags htags
      args := hargs
      initialArgs := hargs
      argTypes := Json.isProper_merge hinfo.argTypes (hproperty _)
      parameters := Json.isProper_merge hinfo.parameters (hproperty _)
      actions := fun _ ↦ StoryAction.isRestorable_of_mem_derive
      component := hcomponent }

end Candidate

/-! ### Indexes and running stories -/

namespace IndexEntry

variable {entry : IndexEntry}

/-- An entry is read with a type. -/
theorem type_ne_nil_of_ofJson {value : Json} (h : ofJson value = .ok entry) : entry.type ≠ [] := by
  unfold ofJson at h
  split at h
  · next fields =>
    unfold ofFields at h
    dsimp only at h
    split at h
    · next htype _ =>
      cases h
      unfold typeField at htype
      cases htext : StoryAction.textOr ((Fields.get? fields "type").getD .null) "story" with
      | error e => rw [htext] at htype; cases htype
      | ok t =>
        rw [htext] at htype
        cases htype
        exact StoryAction.textOr_ne_nil (by decide) htext
    · cases h
  · cases h

private theorem areTags_recordTags (entry : IndexEntry) : AreTags entry.recordTags :=
  areTags_dedupeTags (by simp)

private theorem isProper_fileName (path : Text) :
    (Json.object [("fileName", .string path)]).IsProper :=
  Json.isProper_object.mpr ⟨List.nodup_singleton _, by simp⟩

/-- The record of an entry is read back from what is written. -/
theorem isRestorable_toRecord (h : entry.type ≠ []) (key : Text) :
    (entry.toRecord key).IsRestorable := by
  have hnil : (Json.object []).IsProper := Json.isProper_object.mpr ⟨List.nodup_nil, by simp⟩
  exact
    { type := h
      tags := areTags_recordTags entry
      args := hnil
      initialArgs := hnil
      argTypes := hnil
      parameters := isProper_fileName entry.importPath
      actions := fun _ hmem ↦ absurd hmem List.not_mem_nil
      component := Json.isProper_null }

/-- The record of a running story is read back from what is written. -/
theorem isRestorable_toRuntimeRecord (h : entry.type ≠ []) {key : Text} {data : Json}
    (hdata : data.IsProper) :
    Yields StoryRecord.IsRestorable (entry.toRuntimeRecord key data) := by
  have htags : ∀ value, Yields AreTags (entry.runtimeTags value) := by
    intro value
    unfold runtimeTags
    split
    · exact fun tags ↦ areTags_tagsOf
    · exact .ok (areTags_recordTags entry)
  have hfields := fun key ↦ Json.isProper_fields (Json.isProper_field hdata key)
  refine (htags _).bind fun tags h' ↦ .ok ?_
  exact
    { type := h
      tags := h'
      args := by
        dsimp only
        split
        · exact hfields _
        · exact hfields _
      initialArgs := hfields _
      argTypes := hfields _
      parameters := Json.isProper_merge (isProper_fileName entry.importPath) (hfields _)
      actions := fun _ ↦ StoryAction.isRestorable_of_mem_deriveFromTypes
      component := Json.isProper_follow (hfields _) _ }

end IndexEntry

namespace StoryIndex

/-- Every entry of an index has a type. -/
def IsTyped (index : StoryIndex) : Prop := ∀ entry ∈ index.all.fields, entry.2.type ≠ []

private theorem type_ne_nil_of_entriesOf (value : Option Json) :
    Yields (fun entries ↦ ∀ entry ∈ entries.fields, entry.2.type ≠ []) (entriesOf value) := by
  unfold entriesOf
  split
  · exact .ok fun _ hmem ↦ absurd hmem List.not_mem_nil
  · refine .ok fun entry hmem ↦ ?_
    obtain ⟨⟨key, value⟩, -, hsome⟩ := List.mem_filterMap.mp (Fields.mem_ofList hmem)
    dsimp only at hsome
    split at hsome
    · next hentry =>
      cases hsome
      exact IndexEntry.type_ne_nil_of_ofJson hentry
    · cases hsome
  · intro entries h
    cases h

/-- An index is read with a type for every entry. -/
theorem isTyped_ofJson (value : Json) : Yields IsTyped (ofJson value) := by
  intro index h
  unfold ofJson at h
  split at h
  · next fields =>
    dsimp only at h
    split at h
    · cases h
    · split at h
      · cases h
      · unfold ofFields at h
        dsimp only at h
        split at h
        · next hentries hstories =>
          cases h
          intro entry hmem
          unfold all at hmem
          split at hmem
          · exact type_ne_nil_of_entriesOf _ _ hstories entry hmem
          · exact type_ne_nil_of_entriesOf _ _ hentries entry hmem
        · cases h
  · cases h

/-- So is an index in a file. -/
theorem isTyped_of_read {fs : FileSystem} {p : Path} {index : StoryIndex}
    (h : read fs p = .ok index) : index.IsTyped := by
  unfold read at h
  split at h
  · cases h
  · cases h
  · cases h
  · next value _ =>
    split at h
    · cases h
    · next hvalue =>
      cases h
      exact isTyped_ofJson value _ hvalue

end StoryIndex

end StoryCatalog
