import StoryCatalog.Proofs.Extraction.Persistence
import StoryCatalog.Proofs.Catalog.Restoring
import StoryCatalog.Proofs.Json.Standard

/-!
# Snapshots that any reader takes

The document of a catalog of story files is JSON of the standard exactly if the numbers in the
arguments, argument types and parameters of its records are finite (`StoryFile.isDocument_iff`). A
literal beyond the range of binary64 numbers is read as an infinity, for which the standard has no
spelling.
-/

namespace StoryCatalog

open Json

/-- The numbers that a record has from its story file are finite. -/
structure StoryRecord.IsFinite (r : StoryRecord) : Prop where
  args : (Json.object r.args).IsFinite
  argTypes : (Json.object r.argTypes).IsFinite
  parameters : (Json.object r.parameters).IsFinite

instance (r : StoryRecord) : Decidable r.IsFinite :=
  decidable_of_iff ((Json.object r.args).IsFinite ∧ (Json.object r.argTypes).IsFinite ∧
      (Json.object r.parameters).IsFinite)
    ⟨fun h ↦ ⟨h.1, h.2.1, h.2.2⟩, fun h ↦ ⟨h.args, h.argTypes, h.parameters⟩⟩

/-! ### Records and catalogs as values -/

private theorem isFinite_texts {texts : List Text} : (StoryRecord.textArray texts).IsFinite := by
  rw [StoryRecord.textArray, isFinite_array]
  simp

private theorem isFinite_actions {actions : Fields StoryAction} :
    (Json.object (actions.mapValues StoryAction.toJson)).IsFinite := by
  rw [isFinite_object]
  intro field hfield
  obtain ⟨entry, -, rfl⟩ := List.mem_map.mp hfield
  simp [StoryAction.toJson]

/-- A record of a story file has no other numbers than those that the file decides on. -/
theorem Candidate.isFinite_toRecord {c : Candidate} {info : MetaObject} {importPath source : Text} :
    (c.toRecord info importPath source).toJson.IsFinite ↔
      (c.toRecord info importPath source).IsFinite := by
  have hcomponent : (c.toRecord info importPath source).component.IsFinite := by
    unfold toRecord
    dsimp only
    split <;> simp
  have hinitial : (c.toRecord info importPath source).initialArgs =
      (c.toRecord info importPath source).args := rfl
  simp only [StoryRecord.toJson, StoryDocs.toJson, isFinite_object_cons, isFinite_object_nil,
    isFinite_string, isFinite_texts, isFinite_actions, hcomponent, hinitial, true_and, and_true]
  exact ⟨fun h ↦ ⟨h.1, h.2.2.1, h.2.2.2⟩, fun h ↦ ⟨h.args, h.args, h.argTypes, h.parameters⟩⟩

namespace StoryFile

variable {fs : FileSystem} {root : Path} {now : Timestamp} {paths : List Path} {catalog : Catalog}
  {layout : Layout} {t : Text}

/-- The numbers of a catalog of story files are those of its records and their count. -/
theorem isFinite_toJson_catalogOf (h : catalogOf fs root now paths = .ok catalog) :
    catalog.toJson.IsFinite ↔ ∀ r ∈ catalog.records, r.IsFinite := by
  obtain ⟨records, hrecords, rfl⟩ := exists_records_of_catalogOf h
  have hstories : ∀ stories : Fields StoryRecord,
      (Json.object (stories.mapValues StoryRecord.toJson)).IsFinite ↔
        ∀ entry ∈ stories, entry.2.toJson.IsFinite := fun stories ↦
    isFinite_object.trans List.forall_mem_map
  simp only [Catalog.toJson, Json.nat, isFinite_object_cons, isFinite_object_nil, isFinite_string,
    isFinite_int, hstories, true_and, and_true]
  have hentry : ∀ entry ∈ (Catalog.ofRecords .sourceFiles now records).stories.fields,
      (entry.2.toJson.IsFinite ↔ entry.2.IsFinite) := by
    intro entry hmem
    obtain ⟨c, e, importPath, source, -, -, -, heq⟩ :=
      exists_toRecord_of_recordsOf hrecords (Catalog.mem_stories_ofRecords hmem).2
    rw [heq]
    exact Candidate.isFinite_toRecord
  rw [forall₂_congr hentry]
  exact (List.forall_mem_map (f := Prod.snd)).symm

/-- In every layout, the document of a catalog of story files is one of the JSON grammar exactly if
the numbers that the files decide on are finite. -/
theorem isDocument_iff (h : catalogOf fs root now paths = .ok catalog)
    (hlayout : layout.IsStandard) (ht : catalog.document layout = .ok t) :
    Grammar.IsDocument t ↔ ∀ r ∈ catalog.records, r.IsFinite := by
  have hproper := Catalog.isProper_toJson (isRestorable_catalogOf h)
  rw [isDocument_print_iff hlayout hproper ht, isFinite_toJson_catalogOf h]

/-! ### A number beyond the range -/

/-- The catalog of a script, by itself in a directory. -/
def catalogOfScript (source : String) : Except ReadError Catalog :=
  catalogOf (oneFile source) ⟨"/", ["p"]⟩ .secondOfJanuary [⟨"/", ["p", "A.stories.ts"]⟩]

/-- Whether the catalog of a script has a document in each layout, and whether its records are
finite. -/
private def finiteOfScript (source : String) : Option Bool :=
  match catalogOfScript source with
  | .ok catalog =>
    if (catalog.document .spaced).isOk && (catalog.document (.indented 2)).isOk then
      some (decide (∀ r ∈ catalog.records, r.IsFinite))
    else none
  | .error _ => none

private theorem exists_of_finiteOfScript {source : String} {finite : Bool}
    (h : finiteOfScript source = some finite) :
    ∃ catalog spaced indented, catalogOfScript source = .ok catalog ∧
      catalog.document .spaced = .ok spaced ∧ catalog.document (.indented 2) = .ok indented ∧
      decide (∀ r ∈ catalog.records, r.IsFinite) = finite := by
  unfold finiteOfScript at h
  split at h
  · next catalog hcatalog =>
    split at h
    · next hok =>
      cases hspaced : catalog.document .spaced with
      | error e => simp [hspaced, Except.isOk, Except.toBool] at hok
      | ok spaced =>
        cases hindented : catalog.document (.indented 2) with
        | error e => simp [hindented, Except.isOk, Except.toBool] at hok
        | ok indented =>
          exact ⟨catalog, spaced, indented, hcatalog, hspaced, hindented, Option.some.inj h⟩
    · cases h
  · cases h

private theorem isStandard_spaced : Layout.spaced.IsStandard := ⟨⟨1, rfl⟩, 1, rfl⟩

private theorem isStandard_indented : (Layout.indented 2).IsStandard := trivial

/-- The greatest finite number is in a document, on one line and indented. -/
theorem isDocument_greatest :
    ∃ catalog spaced indented,
      catalogOfScript "export const A=\x7bargs:\x7bn:1.7976931348623157e308\x7d\x7d" =
        .ok catalog ∧
      catalog.document .spaced = .ok spaced ∧ catalog.document (.indented 2) = .ok indented ∧
      Grammar.IsDocument spaced ∧ Grammar.IsDocument indented := by
  have hfinite : finiteOfScript "export const A=\x7bargs:\x7bn:1.7976931348623157e308\x7d\x7d" =
      some true := by decide +kernel
  obtain ⟨catalog, spaced, indented, hcatalog, hspaced, hindented, hdecide⟩ :=
    exists_of_finiteOfScript hfinite
  have hrecords := of_decide_eq_true hdecide
  exact ⟨catalog, spaced, indented, hcatalog, hspaced, hindented,
    (isDocument_iff hcatalog isStandard_spaced hspaced).mpr hrecords,
    (isDocument_iff hcatalog isStandard_indented hindented).mpr hrecords⟩

/-- A literal beyond it is accepted, and the document is none of the grammar in either layout. -/
theorem not_isDocument_beyond :
    ∃ catalog spaced indented,
      catalogOfScript "export const A=\x7bargs:\x7bn:1e999\x7d\x7d" = .ok catalog ∧
      catalog.document .spaced = .ok spaced ∧ catalog.document (.indented 2) = .ok indented ∧
      ¬ Grammar.IsDocument spaced ∧ ¬ Grammar.IsDocument indented := by
  have hfinite : finiteOfScript "export const A=\x7bargs:\x7bn:1e999\x7d\x7d" = some false := by
    decide +kernel
  obtain ⟨catalog, spaced, indented, hcatalog, hspaced, hindented, hdecide⟩ :=
    exists_of_finiteOfScript hfinite
  have hproper := Catalog.isProper_toJson (isRestorable_catalogOf hcatalog)
  have hnot : ¬ catalog.toJson.IsFinite := fun h ↦
    of_decide_eq_false hdecide ((isFinite_toJson_catalogOf hcatalog).mp h)
  refine ⟨catalog, spaced, indented, hcatalog, hspaced, hindented, ?_, ?_⟩
  · rwa [isDocument_print_iff isStandard_spaced hproper hspaced]
  · rwa [isDocument_print_iff isStandard_indented hproper hindented]

end StoryFile

end StoryCatalog
