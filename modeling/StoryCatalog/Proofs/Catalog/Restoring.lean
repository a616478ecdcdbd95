import StoryCatalog.Proofs.Catalog.Writing
import StoryCatalog.Proofs.Files
import StoryCatalog.Proofs.Json.RoundTrip
import StoryCatalog.Proofs.Story.Restoring
import StoryCatalog.Proofs.Story.Sources
import StoryCatalog.Proofs.Timestamp.RoundTrip

/-!
# Reading what is written of a catalog

A catalog of records that are read back is read back itself, from its value
(`Catalog.ofJson_toJson`) and, if its values are of a form that readers give, from the file that
holds its bytes (`Snapshot.read?_of_bytes`).
-/

namespace StoryCatalog

/-- What a record is written as has distinct keys and numbers in their form. -/
theorem StoryRecord.isProper_toJson {r : StoryRecord} (h : r.IsRestorable) :
    r.toJson.IsProper := by
  have htags : (textArray r.tags).IsProper := by
    rw [textArray, Json.isProper_array]
    simp
  have haction : ∀ a : StoryAction, a.toJson.IsProper := by
    intro a
    have hkeys : (["name", "description", "action"] : List Text).Nodup := by decide
    exact Json.isProper_object.mpr ⟨hkeys, by simp⟩
  have hactions : (Json.object (r.actions.fields.mapValues StoryAction.toJson)).IsProper := by
    rw [Json.isProper_object, Fields.keys_mapValues]
    refine ⟨r.actions.nodup_keys, ?_⟩
    intro field hfield
    obtain ⟨entry, -, rfl⟩ := List.mem_map.mp hfield
    exact haction entry.2
  have hdocs : r.docs.toJson.IsProper := by
    have hkeys : (["description", "sourceCode", "mdx"] : List Text).Nodup := by decide
    exact Json.isProper_object.mpr ⟨hkeys, by simp⟩
  have hkeys : (["id", "title", "name", "kind", "story", "importPath", "type", "tags", "args",
    "initialArgs", "argTypes", "parameters", "actions", "docs", "source", "component"] :
    List Text).Nodup := by decide
  refine Json.isProper_object.mpr ⟨hkeys, ?_⟩
  simp only [List.forall_mem_cons, Json.isProper_string, htags, hactions, hdocs, h.args,
    h.initialArgs, h.argTypes, h.parameters, h.component, true_and]
  simp

namespace Catalog

/-- What readers would change is not in a catalog: a missing version, and records under other keys
than their identifiers. -/
structure IsRestorable (c : Catalog) : Prop where
  version : c.version ≠ []
  stories : ∀ entry ∈ c.stories.fields, entry.1 = entry.2.id ∧ entry.2.IsRestorable

variable {c : Catalog}

/-- A catalog of records that are read back. -/
theorem isRestorable_ofRecords {records : List StoryRecord} (source : Provenance)
    (now : Timestamp) (h : ∀ r ∈ records, r.IsRestorable) :
    (ofRecords source now records).IsRestorable where
  version := by
    rw [version_ofRecords]
    decide
  stories := by
    intro entry hentry
    obtain ⟨hkey, hmem⟩ := mem_stories_ofRecords hentry
    exact ⟨hkey, h _ hmem⟩

/-- What a catalog is written as has distinct keys and numbers in their form. -/
theorem isProper_toJson (h : c.IsRestorable) : c.toJson.IsProper := by
  have hstories : (Json.object (c.stories.fields.mapValues StoryRecord.toJson)).IsProper := by
    rw [Json.isProper_object, Fields.keys_mapValues]
    refine ⟨c.stories.nodup_keys, ?_⟩
    intro field hfield
    obtain ⟨entry, hentry, rfl⟩ := List.mem_map.mp hfield
    exact StoryRecord.isProper_toJson (h.stories entry hentry).2
  have hkeys : (["version", "generatedAt", "extractedFrom", "totalStories", "stories"] :
    List Text).Nodup := by decide
  refine Json.isProper_object.mpr ⟨hkeys, ?_⟩
  simp only [List.forall_mem_cons, Json.isProper_string, Json.nat, Json.isProper_int, hstories,
    true_and]
  simp

/-- A catalog with a version, whose records readers leave as they are. -/
structure IsNormal (c : Catalog) : Prop where
  version : c.version ≠ []
  stories : ∀ entry ∈ c.stories.fields, entry.2.IsNormal entry.1

theorem IsRestorable.isNormal (h : c.IsRestorable) : c.IsNormal where
  version := h.version
  stories := by
    intro entry hentry
    obtain ⟨hkey, hrecord⟩ := h.stories entry hentry
    rw [hkey]
    exact hrecord.isNormal

private theorem readStories_mapValues {stories : Fields StoryRecord}
    (h : ∀ entry ∈ stories, entry.2.IsNormal entry.1) :
    readStories (stories.mapValues StoryRecord.toJson) = .ok stories := by
  have hobjects : (stories.mapValues StoryRecord.toJson).filter (·.2.isObject) =
      stories.mapValues StoryRecord.toJson := by
    rw [List.filter_eq_self]
    intro field hfield
    obtain ⟨entry, -, rfl⟩ := List.mem_map.mp hfield
    rfl
  rw [readStories, hobjects]
  refine mapM_map_of_forall fun entry hentry ↦ ?_
  dsimp only
  rw [StoryRecord.ofJson_toJson (h entry hentry)]
  rfl

/-- A catalog is read back from its value. -/
theorem ofJson_toJson (h : c.IsNormal) (now : Timestamp) : ofJson now c.toJson = .ok c := by
  have hversion : StoryAction.textOr (c.toJson.field "version") "1.0.0" = .ok c.version :=
    StoryAction.textOr_string fun hnil ↦ absurd hnil h.version
  have hstories : storiesOf? c.toJson = some (c.stories.fields.mapValues StoryRecord.toJson) := rfl
  have hsource : Provenance.ofJson (c.toJson.field "extractedFrom") = c.extractedFrom :=
    Provenance.ofJson_name c.extractedFrom
  have htime : timeOr now (c.toJson.field "generatedAt") = c.generatedAt := by
    change (Timestamp.read? c.generatedAt.text).getD now = c.generatedAt
    rw [Timestamp.read?_text]
    rfl
  rw [ofJson, hstories]
  dsimp only
  rw [readStories_mapValues h.stories, hversion, hsource, htime]
  change Except.ok { c with stories := OrderedMap.ofList c.stories.fields } = Except.ok c
  rw [OrderedMap.ofList_fields]

end Catalog

namespace Snapshot

variable {fs : FileSystem} {p : Path} {c : Catalog} {names : List Text} {content : Bytes}
  {time : Binary64}

/-- The value of a catalog is read from the file that holds its bytes. -/
theorem readJson_of_bytes (h : c.IsRestorable) (hbytes : bytes c = .ok content)
    (hlocate : fs.locate p = .ok names) (hnode : fs.node? names = some (.file content time)) :
    fs.readJson p = .ok c.toJson := by
  obtain ⟨document, hprint, hencode⟩ := exists_document_of_bytes hbytes
  have hstandard : (Json.Layout.indented indent).IsStandard := trivial
  have hread := FileSystem.read_of_node? hlocate hnode
  have htext : fs.readText p = .ok document := by
    rw [FileSystem.readText, hread]
    dsimp only
    rw [Utf8.decode_of_encode hencode]
    exact congrArg Except.ok
      (Utf8.unifyLineBreaks_of_forall (Json.val_ne_of_mem_print hstandard hprint))
  rw [FileSystem.readJson, htext]
  dsimp only
  rw [Json.read_print hstandard (Catalog.isProper_toJson h) hprint]

/-- A catalog is read back from the file that holds its bytes. -/
theorem read?_of_bytes (h : c.IsRestorable) (hbytes : bytes c = .ok content)
    (hlocate : fs.locate p = .ok names) (hnode : fs.node? names = some (.file content time))
    (now : Timestamp) : read? fs now p = some c := by
  rw [read?, if_pos (FileSystem.isFile_of_node? hlocate hnode),
    readJson_of_bytes h hbytes hlocate hnode]
  dsimp only
  rw [Catalog.ofJson_toJson h.isNormal]
  rfl

end Snapshot

/-- The catalog of story files is one of records that are read back. -/
theorem StoryFile.isRestorable_catalogOf {fs : FileSystem} {root : Path} {now : Timestamp}
    {paths : List Path} {catalog : Catalog} (h : catalogOf fs root now paths = .ok catalog) :
    catalog.IsRestorable := by
  obtain ⟨records, hrecords, rfl⟩ := exists_records_of_catalogOf h
  refine Catalog.isRestorable_ofRecords _ _ fun r hr ↦ ?_
  obtain ⟨c, e, importPath, source, hc, he, -, rfl⟩ := exists_toRecord_of_recordsOf hrecords hr
  exact Candidate.isRestorable_toRecord hc (MetaObject.isRestorable_ofExpression he) _ _

end StoryCatalog
