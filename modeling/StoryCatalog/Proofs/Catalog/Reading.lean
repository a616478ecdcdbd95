import StoryCatalog.Catalog.Snapshot
import StoryCatalog.Proofs.Catalog.Components
import StoryCatalog.Proofs.Files
import StoryCatalog.Proofs.Json.Fitting
import StoryCatalog.Proofs.Json.LineBreaks
import StoryCatalog.Proofs.Text.Encoded
import StoryCatalog.Proofs.Timestamp.RoundTrip

/-!
# Which files are read as catalogs

The readers of records and their parts take any value for what is in a record: they fail only to
display an integer beyond the limit of digits, which no document gives. So a value that is read of a
document is a catalog unless it is no object or has something else than an object under the key of
the stories (`Catalog.ofJson_ok_iff`), and whether a file is read as a catalog is a matter of its
bytes (`Snapshot.read?_of_file`).
-/

namespace StoryCatalog

/-! ### Readers that succeed -/

section Succeeding

variable {ε α β : Type}

/-- What follows a reader succeeds after it. -/
private theorem exists_bind_ok {x : Except ε α} {f : α → Except ε β} (hx : ∃ a, x = .ok a)
    (hf : ∀ a, ∃ b, f a = .ok b) : ∃ b, (x >>= f) = .ok b := by
  obtain ⟨a, rfl⟩ := hx
  exact hf a

end Succeeding

namespace Json

variable {value : Json}

theorem fitsLimit_field (h : value.FitsLimit) (key : Text) : (value.field key).FitsLimit :=
  everywhere_field h trivial key

theorem fitsLimit_of_mem_fields (h : value.FitsLimit) :
    ∀ field ∈ value.fields, field.2.FitsLimit := by
  cases value with
  | object fields => exact fitsLimit_object.mp h
  | _ => simp [fields]

end Json

open Json

variable {value : Json}

theorem StoryAction.exists_textOr (h : value.FitsLimit) (other : Text) :
    ∃ t, textOr value other = .ok t := by
  rw [textOr]
  split
  · exact display_ok_iff.mpr h
  · exact ⟨other, rfl⟩

open StoryAction (exists_textOr)

theorem StoryAction.exists_ofJson (h : value.FitsLimit) (key : Text) :
    ∃ a, ofJson key value = .ok a := by
  refine exists_bind_ok (exists_textOr (fitsLimit_field h _) _) fun _ ↦ ?_
  refine exists_bind_ok (exists_textOr (fitsLimit_field h _) _) fun _ ↦ ?_
  refine exists_bind_ok (exists_textOr (fitsLimit_field h _) _) fun _ ↦ ?_
  exact ⟨_, rfl⟩

theorem StoryDocs.exists_ofJson (h : value.FitsLimit) : ∃ d, ofJson value = .ok d := by
  refine exists_bind_ok (exists_textOr (fitsLimit_field h _) _) fun _ ↦ ?_
  refine exists_bind_ok (exists_textOr (fitsLimit_field h _) _) fun _ ↦ ?_
  refine exists_bind_ok (exists_textOr (fitsLimit_field h _) _) fun _ ↦ ?_
  exact ⟨_, rfl⟩

theorem exists_tagsOf (h : value.FitsLimit) : ∃ tags, tagsOf value = .ok tags := by
  cases value with
  | array items =>
    refine exists_bind_ok (mapM_ok_iff.mpr fun item hitem ↦ ?_) fun _ ↦ ⟨_, rfl⟩
    exact display_ok_iff.mpr (fitsLimit_array.mp h item (List.mem_filter.mp hitem).1)
  | string t => exact ⟨_, rfl⟩
  | _ => exact ⟨[], rfl⟩

namespace StoryRecord

theorem exists_firstText {other : Json} (h : value.FitsLimit) (hother : other.FitsLimit) :
    ∃ t, firstText value other = .ok t := by
  rw [firstText]
  split
  · exact display_ok_iff.mpr h
  · exact exists_textOr hother []

/-- Any value is read as a record. -/
theorem exists_ofJson (h : value.FitsLimit) (storyId : Text) :
    ∃ r, ofJson value storyId = .ok r := by
  have hfield := fitsLimit_field h
  refine exists_bind_ok (exists_textOr (hfield _) _) fun _ ↦ ?_
  refine exists_bind_ok (exists_firstText (hfield _) (hfield _)) fun _ ↦ ?_
  refine exists_bind_ok (exists_firstText (hfield _) (hfield _)) fun _ ↦ ?_
  refine exists_bind_ok (exists_textOr (hfield _) _) fun _ ↦ ?_
  refine exists_bind_ok (exists_textOr (hfield _) _) fun _ ↦ ?_
  refine exists_bind_ok (exists_tagsOf (hfield _)) fun _ ↦ ?_
  refine exists_bind_ok (mapM_ok_iff.mpr fun field hmem ↦ ?_) fun _ ↦ ?_
  · have haction := fitsLimit_of_mem_fields (hfield _) field hmem
    exact exists_bind_ok (StoryAction.exists_ofJson haction _) fun _ ↦ ⟨_, rfl⟩
  refine exists_bind_ok (StoryDocs.exists_ofJson (hfield _)) fun _ ↦ ?_
  refine exists_bind_ok (exists_textOr (hfield _) _) fun _ ↦ ?_
  exact ⟨_, rfl⟩

end StoryRecord

namespace Catalog

/-- A value is an object that has an object under the key of the stories, or nothing. -/
def HasStories (value : Json) : Prop :=
  ∃ fields, value = .object fields ∧
    ∀ stories, Fields.get? fields "stories" = some stories → stories.isObject = true

theorem storiesOf?_ok_iff : (∃ stories, storiesOf? value = some stories) ↔ HasStories value := by
  unfold storiesOf? HasStories
  cases value with
  | object fields =>
    dsimp only
    cases hget : Fields.get? fields "stories" with
    | none => simp [hget]
    | some found => cases found <;> simp [hget, isObject]
  | _ => simp

theorem fitsLimit_of_storiesOf? {stories : Fields Json} (h : value.FitsLimit)
    (hstories : storiesOf? value = some stories) : ∀ entry ∈ stories, entry.2.FitsLimit := by
  unfold storiesOf? at hstories
  split at hstories
  · next fields =>
    split at hstories
    · cases hstories
      simp
    · next found hget =>
      cases hstories
      have hfound := fitsLimit_object.mp h _ (Fields.mem_of_get? hget)
      exact fitsLimit_object.mp hfound
    · cases hstories
  · cases hstories

private theorem exists_lift {α : Type} {x : Except TooManyDigits α} (h : ∃ a, x = .ok a) :
    ∃ a, ReadError.lift x = .ok a := by
  obtain ⟨a, rfl⟩ := h
  exact ⟨a, rfl⟩

theorem exists_readStories {stories : Fields Json} (h : ∀ entry ∈ stories, entry.2.FitsLimit) :
    ∃ records, readStories stories = .ok records :=
  mapM_ok_iff.mpr fun entry hentry ↦ exists_bind_ok
    (StoryRecord.exists_ofJson (h entry (List.mem_filter.mp hentry).1) entry.1) fun _ ↦ ⟨_, rfl⟩

/-- A value within the limit is read as a catalog exactly if it has stories, and is refused for
nothing else. -/
theorem ofJson_ok_iff (h : value.FitsLimit) (now : Timestamp) :
    ((∃ c, ofJson now value = .ok c) ↔ HasStories value) ∧
      ∀ error, ofJson now value = .error error → error = .noStories := by
  cases hstories : storiesOf? value with
  | none =>
    have hno : ¬ HasStories value := by simp [← storiesOf?_ok_iff, hstories]
    have herror : ofJson now value = .error .noStories := by rw [ofJson, hstories]
    rw [herror]
    refine ⟨iff_of_false (by simp) hno, fun error heq ↦ ?_⟩
    cases heq
    rfl
  | some stories =>
    have hsome : HasStories value := storiesOf?_ok_iff.mp ⟨stories, hstories⟩
    obtain ⟨c, hc⟩ : ∃ c, ofJson now value = .ok c := by
      rw [ofJson, hstories]
      have hentries := fitsLimit_of_storiesOf? h hstories
      refine exists_bind_ok (exists_lift (exists_readStories hentries)) fun _ ↦ ?_
      exact exists_bind_ok (exists_lift (exists_textOr (fitsLimit_field h _) _)) fun _ ↦ ⟨_, rfl⟩
    rw [hc]
    refine ⟨iff_of_true ⟨c, rfl⟩ hsome, fun error heq ↦ ?_⟩
    cases heq

end Catalog

namespace Snapshot

/-- The bytes are those of a text that denotes a value with stories. -/
def HoldsCatalog (content : Bytes) : Prop :=
  ∃ t value, Utf8.encode t = .ok content ∧ Json.read t = .ok value ∧ Catalog.HasStories value

section Reading

variable {fs : FileSystem} {p : Path} {content : Bytes} {time : Binary64} {t : Text}
  (hfind : fs.find p = .ok (.file content time))

include hfind

/-- The value of a file is that of its text, whatever line breaks this has. -/
theorem readJson_eq_ok_iff :
    fs.readJson p = .ok value ↔ ∃ t, Utf8.encode t = .ok content ∧ Json.read t = .ok value := by
  simp only [← Utf8.decode_ok_iff]
  rw [FileSystem.readJson, FileSystem.readText, FileSystem.read_of_find hfind]
  dsimp only
  cases hdecode : Utf8.decode content with
  | error fault => simp
  | ok t =>
    have hunified := @Json.read_unifyLineBreaks t value
    simp only [Except.ok.injEq, exists_eq_left', ← hunified]
    cases Json.read (Utf8.unifyLineBreaks t) <;> simp

theorem read?_of_readJson (now : Timestamp) (hread : fs.readJson p = .ok value) :
    read? fs now p = (Catalog.ofJson now value).toOption := by
  rw [read?, if_pos (FileSystem.isFile_iff.mpr ⟨content, time, hfind⟩), hread]

theorem read?_of_no_value (now : Timestamp) (hno : ∀ value, fs.readJson p ≠ .ok value) :
    read? fs now p = none := by
  rw [read?, if_pos (FileSystem.isFile_iff.mpr ⟨content, time, hfind⟩)]
  cases hread : fs.readJson p with
  | error fault => rfl
  | ok value => exact absurd hread (hno value)

/-- A file is read as a catalog exactly if its bytes hold one. The catalog is then the one of the
value that its text denotes, and a value is no catalog only because it has no stories. -/
theorem read?_of_file (now : Timestamp) :
    (HoldsCatalog content → ∃ c, read? fs now p = some c) ∧
    (¬ HoldsCatalog content → read? fs now p = none) ∧
    ∀ t value, Utf8.encode t = .ok content → Json.read t = .ok value →
      read? fs now p = (Catalog.ofJson now value).toOption ∧
      ∀ error, Catalog.ofJson now value = .error error → error = .noStories := by
  have hvalue : ∀ t value, Utf8.encode t = .ok content → Json.read t = .ok value →
      read? fs now p = (Catalog.ofJson now value).toOption := fun t value ht hread ↦
    read?_of_readJson hfind now ((readJson_eq_ok_iff hfind).mpr ⟨t, ht, hread⟩)
  refine ⟨?_, fun hno ↦ ?_, fun t value ht hread ↦ ⟨hvalue t value ht hread, ?_⟩⟩
  · rintro ⟨t, value, ht, hread, hstories⟩
    obtain ⟨c, hc⟩ := (Catalog.ofJson_ok_iff (Json.fitsLimit_of_read hread) now).1.mpr hstories
    exact ⟨c, by rw [hvalue t value ht hread, hc]; rfl⟩
  · by_cases hread : ∃ value, fs.readJson p = .ok value
    · obtain ⟨value, hread⟩ := hread
      obtain ⟨t, ht, hjson⟩ := (readJson_eq_ok_iff hfind).mp hread
      have hcatalog := (Catalog.ofJson_ok_iff (Json.fitsLimit_of_read hjson) now).1
      rw [hvalue t value ht hjson]
      cases hc : Catalog.ofJson now value with
      | error error => rfl
      | ok c => exact absurd ⟨t, value, ht, hjson, hcatalog.mp ⟨c, hc⟩⟩ hno
    · exact read?_of_no_value hfind now fun value hok ↦ hread ⟨value, hok⟩
  · exact (Catalog.ofJson_ok_iff (Json.fitsLimit_of_read hread) now).2

end Reading

/-- A directory whose catalog file has the given bytes. -/
def withCatalogFile (content : Bytes) : FileSystem where
  working := ⟨"/", []⟩
  nodes := [(["stories.json"], .file content (.ofInt 0))]

/-- A document whose stories have tags and actions of all kinds, or are no records at all. -/
def oddDocument : Text := Text.ofString <|
  "\x7b\"stories\": \x7b\r\n" ++
  "\"a--b\": \x7b\"title\": 7, \"tags\": \"x\", \"actions\": \x7b\"onA\": null\x7d\x7d,\r\n" ++
  "\"c--d\": 4,\r\n" ++
  "\"e--f\": \x7b\"tags\": [1, null, \"t\"], \"actions\": []\x7d\x7d\x7d"

/-- A directory that has the document for its catalog. -/
def withOddDocument : FileSystem := withCatalogFile (oddDocument.flatMap Utf8.encodeCodePoint)

/-- Its stories are read, save the one that is no record. -/
theorem read?_oddDocument :
    withOddDocument.find (Path.ofString "/stories.json") =
      .ok (.file (oddDocument.flatMap Utf8.encodeCodePoint) (.ofInt 0)) ∧
    HoldsCatalog (oddDocument.flatMap Utf8.encodeCodePoint) ∧
    ∃ c, read? withOddDocument .secondOfJanuary (Path.ofString "/stories.json") = some c ∧
      c.records.map (fun r ↦ (r.title, r.tags, r.actions.keys)) =
        [(("7" : Text), [("x" : Text)], [("onA" : Text)]), ([], ["1", "t"], [])] := by
  have hfind : withOddDocument.find (Path.ofString "/stories.json") =
      .ok (.file (oddDocument.flatMap Utf8.encodeCodePoint) (.ofInt 0)) := rfl
  have hstories : (Json.read oddDocument).toOption.any (Catalog.storiesOf? · |>.isSome) = true := by
    decide +kernel
  have hholds : HoldsCatalog (oddDocument.flatMap Utf8.encodeCodePoint) := by
    cases hread : Json.read oddDocument with
    | error fault =>
      rw [hread] at hstories
      cases hstories
    | ok value =>
      rw [hread] at hstories
      exact ⟨oddDocument, value, Utf8.encode_of_isScalar (Text.isScalar_ofString _), hread,
        Catalog.storiesOf?_ok_iff.mp (Option.isSome_iff_exists.mp hstories)⟩
  obtain ⟨c, hc⟩ := (read?_of_file hfind .secondOfJanuary).1 hholds
  have hrecords : (read? withOddDocument .secondOfJanuary (Path.ofString "/stories.json")).map
      (·.records.map fun r ↦ (r.title, r.tags, r.actions.keys)) =
      some [(("7" : Text), [("x" : Text)], [("onA" : Text)]), ([], ["1", "t"], [])] := by
    decide +kernel
  rw [hc] at hrecords
  exact ⟨hfind, hholds, c, hc, Option.some.inj hrecords⟩

end Snapshot

end StoryCatalog
