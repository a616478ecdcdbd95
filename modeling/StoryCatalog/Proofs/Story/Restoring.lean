import StoryCatalog.Proofs.Fields
import StoryCatalog.Proofs.Json.Value
import StoryCatalog.Story.Record

/-!
# Reading what is written of a record

A record is read back from its value if its texts tell what they should: readers take an empty type
for the default, drop empty and repeated tags, and take the key for an empty identifier and for an
empty name of an action (`StoryRecord.ofJson_toJson`).
-/

namespace StoryCatalog

/-! ### Lists of values -/

/-- The values that are made of items are read back as the items. -/
theorem mapM_map_of_forall {ε α β : Type} {read : β → Except ε α} {write : α → β} {items : List α}
    (h : ∀ item ∈ items, read (write item) = .ok item) :
    (items.map write).mapM read = .ok items := by
  induction items with
  | nil => rfl
  | cons item rest ih =>
    obtain ⟨hitem, hrest⟩ := List.forall_mem_cons.mp h
    rw [List.map_cons, List.mapM_cons, hitem, ih hrest]
    rfl

/-! ### Tags -/

variable {seen tags : List Text} {tag : Text}

private def addTag (seen : List Text) (tag : Text) : List Text :=
  if seen.contains tag then seen else seen ++ [tag]

private theorem mem_of_mem_addTag {t : Text} (h : t ∈ addTag seen tag) : t ∈ seen ∨ t = tag := by
  unfold addTag at h
  split at h
  · exact .inl h
  · rcases List.mem_append.mp h with hold | hnew
    · exact .inl hold
    · exact .inr (List.mem_singleton.mp hnew)

private theorem nodup_addTag (h : seen.Nodup) (tag : Text) : (addTag seen tag).Nodup := by
  unfold addTag
  split
  · exact h
  · next hnew =>
    rw [← List.concat_eq_append, List.nodup_concat]
    exact ⟨fun hmem ↦ hnew (List.contains_iff_mem.mpr hmem), h⟩

private theorem addTag_of_not_mem (h : tag ∉ seen) : addTag seen tag = seen ++ [tag] :=
  if_neg (by simpa using h)

private theorem nodup_foldl_addTag (h : seen.Nodup) : (tags.foldl addTag seen).Nodup := by
  induction tags generalizing seen with
  | nil => exact h
  | cons tag rest ih => exact ih (nodup_addTag h tag)

private theorem mem_of_mem_foldl_addTag {t : Text} (h : t ∈ tags.foldl addTag seen) :
    t ∈ seen ∨ t ∈ tags := by
  induction tags generalizing seen with
  | nil => exact .inl h
  | cons tag rest ih =>
    rcases ih h with hseen | hrest
    · rcases mem_of_mem_addTag hseen with hold | rfl
      · exact .inl hold
      · exact .inr List.mem_cons_self
    · exact .inr (List.mem_cons_of_mem _ hrest)

private theorem foldl_addTag_of_nodup (h : (seen ++ tags).Nodup) :
    tags.foldl addTag seen = seen ++ tags := by
  induction tags generalizing seen with
  | nil => exact (List.append_nil seen).symm
  | cons tag rest ih =>
    have hnew : tag ∉ seen := by
      intro hmem
      exact (List.nodup_append.mp h).2.2 tag hmem tag List.mem_cons_self rfl
    have happend : seen ++ tag :: rest = (seen ++ [tag]) ++ rest := by simp
    rw [happend] at h ⊢
    rw [List.foldl_cons, addTag_of_not_mem hnew]
    exact ih h

/-- Tags without repetitions are left, all of them from those that were there. -/
theorem nodup_dedupeTags (tags : List Text) : (dedupeTags tags).Nodup :=
  nodup_foldl_addTag List.nodup_nil

theorem mem_of_mem_dedupeTags (h : tag ∈ dedupeTags tags) : tag ∈ tags :=
  (mem_of_mem_foldl_addTag h).resolve_left List.not_mem_nil

/-- Tags without repetitions all stay. -/
theorem dedupeTags_of_nodup (h : tags.Nodup) : dedupeTags tags = tags :=
  foldl_addTag_of_nodup h

/-- Tags, none of them empty and none repeated. -/
def AreTags (tags : List Text) : Prop := tags.Nodup ∧ [] ∉ tags

/-- Without its empty and repeated texts, a list is one of tags. -/
theorem areTags_dedupeTags (h : [] ∉ tags) : AreTags (dedupeTags tags) :=
  ⟨nodup_dedupeTags tags, mt mem_of_mem_dedupeTags h⟩

/-- Tags are read back from their array. -/
theorem tagsOf_textArray (h : AreTags tags) :
    tagsOf (StoryRecord.textArray tags) = .ok tags := by
  have hkept : (tags.map Json.string).filter (!isBlankTag ·) = tags.map Json.string := by
    rw [List.filter_eq_self]
    intro item hitem
    obtain ⟨tag, htag, rfl⟩ := List.mem_map.mp hitem
    cases tag with
    | nil => exact absurd htag h.2
    | cons c rest => rfl
  have hread : (tags.map Json.string).mapM Json.display = .ok tags :=
    mapM_map_of_forall fun _ _ ↦ rfl
  rw [StoryRecord.textArray, tagsOf, hkept, hread]
  exact congrArg Except.ok (dedupeTags_of_nodup h.1)

/-! ### Actions and documentation -/

namespace StoryAction

/-- A text is read back, or what stands for an empty one is empty. -/
theorem textOr_string {t other : Text} (h : t = [] → other = []) :
    textOr (.string t) other = .ok t := by
  cases t with
  | nil => rw [h rfl]; rfl
  | cons c rest => rfl

/-- An action under a key, whose name and event are empty only if the key is. -/
def IsRestorable (key : Text) (a : StoryAction) : Prop :=
  (a.name = [] → key = []) ∧ (a.action = [] → key = [])

theorem ofJson_toJson {key : Text} {a : StoryAction} (h : a.IsRestorable key) :
    ofJson key a.toJson = .ok a := by
  have hname : textOr (a.toJson.field "name") key = .ok a.name := textOr_string h.1
  have haction : textOr (a.toJson.field "action") key = .ok a.action := textOr_string h.2
  have hdescription : textOr (a.toJson.field "description") [] = .ok a.description :=
    textOr_string fun _ ↦ rfl
  rw [ofJson, hname, haction, hdescription]
  rfl

end StoryAction

theorem StoryDocs.ofJson_toJson (d : StoryDocs) : ofJson d.toJson = .ok d := by
  have htext : ∀ t, StoryAction.textOr (.string t) [] = .ok t :=
    fun _ ↦ StoryAction.textOr_string fun _ ↦ rfl
  change (do
    let description ← StoryAction.textOr (.string d.description) []
    let sourceCode ← StoryAction.textOr (.string d.sourceCode) []
    let mdx ← StoryAction.textOr (.string d.mdx) []
    return { description, sourceCode, mdx } : Except TooManyDigits StoryDocs) = .ok d
  rw [htext, htext, htext]
  rfl

namespace StoryRecord

/-! ### Records -/

/-- What readers would change is not in a record: an empty type, odd tags, actions without a name,
and values of a form that no document gives. -/
structure IsRestorable (r : StoryRecord) : Prop where
  type : r.type ≠ []
  tags : AreTags r.tags
  args : (Json.object r.args).IsProper
  initialArgs : (Json.object r.initialArgs).IsProper
  argTypes : (Json.object r.argTypes).IsProper
  parameters : (Json.object r.parameters).IsProper
  actions : ∀ entry ∈ r.actions.fields, entry.2.IsRestorable entry.1
  component : r.component.IsProper

/-- A record under a key of which readers leave all texts as they are. -/
structure IsNormal (key : Text) (r : StoryRecord) : Prop where
  id : r.id = [] → key = []
  type : r.type ≠ []
  tags : AreTags r.tags
  actions : ∀ entry ∈ r.actions.fields, entry.2.IsRestorable entry.1

variable {key : Text} {r : StoryRecord}

/-- Readers leave a record as it is under its own identifier. -/
theorem IsRestorable.isNormal (h : r.IsRestorable) : r.IsNormal r.id where
  id := fun hnil ↦ hnil
  type := h.type
  tags := h.tags
  actions := h.actions

private theorem firstText_string (t : Text) : firstText (.string t) (.string t) = .ok t := by
  cases t <;> rfl

/-- A record is read back from its value, under the key where it stands. -/
theorem ofJson_toJson (h : r.IsNormal key) : ofJson r.toJson key = .ok r := by
  have hactions : ∀ readEntry : Text × Json → Except TooManyDigits (Text × StoryAction),
      (∀ entry, readEntry entry = StoryAction.ofJson entry.1 entry.2 >>= fun a ↦
        pure (entry.1, a)) →
      (r.toJson.field "actions").fields.mapM readEntry = .ok r.actions.fields := by
    refine fun readEntry hread ↦ mapM_map_of_forall fun entry hentry ↦ ?_
    rw [hread, StoryAction.ofJson_toJson (h.actions entry hentry)]
    rfl
  have hid : StoryAction.textOr (r.toJson.field "id") key = .ok r.id :=
    StoryAction.textOr_string h.id
  have htitle : firstText (r.toJson.field "title") (r.toJson.field "kind") = .ok r.title :=
    firstText_string r.title
  have hname : firstText (r.toJson.field "name") (r.toJson.field "story") = .ok r.name :=
    firstText_string r.name
  have himport : StoryAction.textOr (r.toJson.field "importPath") [] = .ok r.importPath :=
    StoryAction.textOr_string fun _ ↦ rfl
  have htype : StoryAction.textOr (r.toJson.field "type") "story" = .ok r.type :=
    StoryAction.textOr_string fun hnil ↦ absurd hnil h.type
  have htags : tagsOf (r.toJson.field "tags") = .ok r.tags := tagsOf_textArray h.tags
  have hdocs : StoryDocs.ofJson (r.toJson.field "docs") = .ok r.docs :=
    StoryDocs.ofJson_toJson r.docs
  have hsource : StoryAction.textOr (r.toJson.field "source") [] = .ok r.source :=
    StoryAction.textOr_string fun _ ↦ rfl
  rw [ofJson, hid, htitle, hname, himport, htype, htags, hactions _ fun _ ↦ rfl,
    hdocs, hsource]
  change Except.ok { r with actions := OrderedMap.ofList r.actions.fields } = Except.ok r
  rw [OrderedMap.ofList_fields]

end StoryRecord

end StoryCatalog
