import StoryCatalog.Catalog.Snapshot
import StoryCatalog.Proofs.Story.Discovery
import StoryCatalog.Proofs.Story.Writing
import StoryCatalog.Proofs.Timestamp.RoundTrip

/-!
# Writing catalogs

A snapshot has bytes exactly if its catalog, as a value, is writable (`Snapshot.bytes_ok_iff`). For
the catalog of story files this depends on its records alone
(`StoryFile.isWritable_toJson_catalogOf`), so long as their count can be written.
-/

namespace StoryCatalog

namespace Catalog

/-! ### The records of a catalog -/

variable {source : Provenance} {now : Timestamp} {records : List StoryRecord}

private theorem mem_stories_foldl_add {c : Catalog} {entry : Text × StoryRecord}
    (h : entry ∈ (records.foldl add c).stories.fields) :
    entry ∈ c.stories.fields ∨ entry.1 = entry.2.id ∧ entry.2 ∈ records := by
  induction records generalizing c with
  | nil => exact .inl h
  | cons r rest ih =>
    rcases ih h with hmem | ⟨hkey, hmem⟩
    · rcases Fields.mem_put hmem with hold | rfl
      · exact .inl hold
      · exact .inr ⟨rfl, List.mem_cons_self⟩
    · exact .inr ⟨hkey, List.mem_cons_of_mem _ hmem⟩

/-- Records stand under their identifiers and are among those that were added. -/
theorem mem_stories_ofRecords {entry : Text × StoryRecord}
    (h : entry ∈ (ofRecords source now records).stories.fields) :
    entry.1 = entry.2.id ∧ entry.2 ∈ records :=
  (mem_stories_foldl_add h).resolve_left List.not_mem_nil

private theorem foldl_add_eq (c : Catalog) :
    (records.foldl add c).version = c.version ∧
      (records.foldl add c).generatedAt = c.generatedAt := by
  induction records generalizing c with
  | nil => exact ⟨rfl, rfl⟩
  | cons r rest ih => exact ih (c.add r)

@[simp] theorem version_ofRecords : (ofRecords source now records).version = "1.0.0" :=
  (foldl_add_eq _).1

@[simp] theorem generatedAt_ofRecords : (ofRecords source now records).generatedAt = now :=
  (foldl_add_eq _).2

private theorem isWritable_stories {stories : Fields StoryRecord} :
    (Json.object (stories.mapValues StoryRecord.toJson)).IsWritable ↔
      ∀ entry ∈ stories, entry.1.IsScalar ∧ entry.2.toJson.IsWritable := by
  induction stories with
  | nil => simp [Fields.mapValues]
  | cons entry rest ih =>
    rw [List.forall_mem_cons, ← ih]
    exact Json.isWritable_object_cons.trans and_assoc.symm

/-- A catalog is writable exactly if its version, its count of stories, their keys and records
are. -/
theorem isWritable_toJson {c : Catalog} :
    c.toJson.IsWritable ↔ c.version.IsScalar ∧ Number.fitsLimit c.size = true ∧
      ∀ entry ∈ c.stories.fields, entry.1.IsScalar ∧ entry.2.toJson.IsWritable := by
  have hname : c.extractedFrom.name.IsScalar := by
    cases c.extractedFrom <;> exact Text.isScalar_ofString _
  simp only [toJson, Json.isWritable_object_cons, Json.isWritable_string, Text.isScalar_ofString,
    Timestamp.isScalar_text, hname, isWritable_stories, Json.nat, Json.isWritable_int,
    Json.isWritable_object_nil, true_and, and_true]

end Catalog

namespace Snapshot

variable {c : Catalog} {content : Bytes}

/-! ### The bytes of a snapshot -/

/-- The bytes of a snapshot are those of its document. -/
theorem exists_document_of_bytes (h : bytes c = .ok content) :
    ∃ document, Json.print (.indented indent) c.toJson = .ok document ∧
      Utf8.encode document = .ok content := by
  unfold bytes at h
  split at h
  · cases h
  · next document hdocument =>
    split at h
    · cases h
    · next found hencode =>
      cases h
      exact ⟨document, hdocument, hencode⟩

/-- A snapshot has bytes exactly if its catalog is writable. -/
theorem bytes_ok_iff : (∃ content, bytes c = .ok content) ↔ c.toJson.IsWritable := by
  rw [← @Json.encode_print_ok_iff (.indented indent) trivial]
  constructor
  · rintro ⟨content, h⟩
    obtain ⟨document, hdocument, hencode⟩ := exists_document_of_bytes h
    exact ⟨document, content, hdocument, hencode⟩
  · rintro ⟨document, content, hdocument, hencode⟩
    refine ⟨content, ?_⟩
    unfold bytes Catalog.document
    rw [hdocument]
    dsimp only
    rw [hencode]

/-- What keeps a snapshot from having bytes is an integer with too many digits or a surrogate. -/
theorem fault_of_bytes {fault : SaveFault} (h : bytes c = .error fault) :
    fault = .number ∨ ∃ e, fault = .encoding e := by
  unfold bytes at h
  split at h
  · exact .inl (Except.error.inj h).symm
  · split at h
    · exact .inr ⟨_, (Except.error.inj h).symm⟩
    · cases h

end Snapshot

namespace StoryFile

variable {fs : FileSystem} {root : Path} {now : Timestamp} {paths : List Path} {catalog : Catalog}

/-! ### Catalogs of story files -/

/-- The catalog of story files is writable exactly if their records are, so long as the count of
stories is. -/
theorem isWritable_toJson_catalogOf (h : catalogOf fs root now paths = .ok catalog) :
    catalog.toJson.IsWritable ↔
      Number.fitsLimit catalog.size = true ∧ ∀ r ∈ catalog.records, r.IsWritable := by
  obtain ⟨records, hrecords, rfl⟩ := exists_records_of_catalogOf h
  have hversion : (Catalog.ofRecords .sourceFiles now records).version.IsScalar := by
    rw [Catalog.version_ofRecords]
    exact Text.isScalar_ofString _
  rw [Catalog.isWritable_toJson, and_iff_right hversion]
  refine and_congr_right fun _ ↦ ?_
  have hentry : ∀ entry ∈ (Catalog.ofRecords .sourceFiles now records).stories.fields,
      (entry.1.IsScalar ∧ entry.2.toJson.IsWritable ↔ entry.2.IsWritable) := by
    intro entry hmem
    obtain ⟨hkey, hrecord⟩ := Catalog.mem_stories_ofRecords hmem
    obtain ⟨c, e, importPath, source, -, -, hsource, heq⟩ :=
      exists_toRecord_of_recordsOf hrecords hrecord
    rw [hkey, heq]
    exact (and_iff_right (Text.isScalar_slugify _)).trans (Candidate.isWritable_toRecord hsource)
  rw [forall₂_congr hentry]
  exact (List.forall_mem_map (f := Prod.snd)).symm

end StoryFile

end StoryCatalog
