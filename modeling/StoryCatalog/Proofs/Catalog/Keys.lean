import StoryCatalog.Proofs.Catalog.Components
import StoryCatalog.Proofs.Catalog.Records
import StoryCatalog.Proofs.Literal.Plain

/-!
# The keys of a catalog

A record that is added stands under its identifier, and a catalog in which all records do keeps
this (`IsKeyed.addAll`). A record that is read from a document stands under the key that the
document gives it (`related_ofJson`), and may name another identifier. `isKeyed_addAll_iff` says
which documents, and which additions to them, make a catalog with every record under its
identifier.
-/

namespace StoryCatalog

namespace Catalog

variable {c : Catalog} {r : StoryRecord} {records : List StoryRecord} {key : Text}

/-- Every record stands under its identifier, so that no two records have the same one. -/
structure IsKeyed (c : Catalog) : Prop where
  id_eq : ∀ key r, c.stories.get? key = some r → r.id = key
  nodup_ids : (c.records.map (·.id)).Nodup

/-- Identifiers that are keys are distinct as keys are. -/
theorem isKeyed_iff : c.IsKeyed ↔ ∀ key r, c.stories.get? key = some r → r.id = key := by
  refine ⟨IsKeyed.id_eq, fun h ↦ ⟨h, ?_⟩⟩
  have hids : c.records.map (·.id) = c.stories.keys := by
    rw [records, OrderedMap.values, Fields.values, List.map_map]
    refine List.map_congr_left fun entry hentry ↦ ?_
    exact h entry.1 entry.2 (Fields.get?_of_mem c.stories.nodup_keys hentry)
  rw [hids]
  exact c.stories.nodup_keys

/-! ### Added records -/

/-- Additions leave a catalog with every record under its identifier exactly if they replace all
records that stood under other keys. -/
theorem isKeyed_addAll : (c.addAll records).IsKeyed ↔
    ∀ key r, c.stories.get? key = some r → key ∈ records.map (·.id) ∨ r.id = key := by
  rw [isKeyed_iff]
  constructor
  · intro h key r hget
    by_cases hmem : key ∈ records.map (·.id)
    · exact .inl hmem
    · refine .inr (h key r ?_)
      have hnone : records.reverse.find? (·.id == key) = none := by
        simpa [List.find?_eq_none] using hmem
      rw [get?_addAll, hnone]
      exact hget
  · intro h key r hget
    rw [get?_addAll] at hget
    cases hfind : records.reverse.find? (·.id == key) with
    | some found =>
      rw [hfind] at hget
      obtain rfl : found = r := Option.some.inj hget
      have hid := List.find?_some hfind
      exact beq_iff_eq.mp hid
    | none =>
      rw [hfind] at hget
      refine (h key r hget).resolve_left fun hmem ↦ ?_
      obtain ⟨found, hfound, hid⟩ := List.mem_map.mp hmem
      have hnot := List.find?_eq_none.mp hfind found (List.mem_reverse.mpr hfound)
      exact hnot (beq_iff_eq.mpr hid)

/-- Additions to a catalog with every record under its identifier leave it so. -/
theorem IsKeyed.addAll (h : c.IsKeyed) (records : List StoryRecord) : (c.addAll records).IsKeyed :=
  isKeyed_addAll.mpr fun key r hget ↦ .inr (h.id_eq key r hget)

theorem isKeyed_empty (source : Provenance) (now : Timestamp) : (empty source now).IsKeyed :=
  isKeyed_iff.mpr fun key r hget ↦ by cases hget

/-! ### Documents -/

/-- The stories that are read of a document: the objects among its stories, under their keys. -/
def storyObjects (value : Json) : Fields Json :=
  Fields.ofList (((storiesOf? value).getD []).filter (·.2.isObject))

/-- A story of a document names no other identifier than the key under which it stands. -/
def NamesNoOther (story : Json) (key : Text) : Prop :=
  (story.field "id").isTruthy = true → (story.field "id").display = .ok key

theorem yields_id (story : Json) (key : Text) :
    Yields (fun r ↦ StoryAction.textOr (story.field "id") key = .ok r.id)
      (StoryRecord.ofJson story key) := by
  have hid : Yields (fun id ↦ StoryAction.textOr (story.field "id") key = .ok id)
      (StoryAction.textOr (story.field "id") key) := fun _ h ↦ h
  refine hid.bind fun id hid ↦ .bind_any fun title ↦ .bind_any fun name ↦ .bind_any fun path ↦ ?_
  refine .bind_any fun type ↦ .bind_any fun tags ↦ .bind_any fun actions ↦ ?_
  exact .bind_any fun docs ↦ .bind_any fun source ↦ .ok hid

/-- A story is read as a record that has its key for an identifier exactly if it names no other
one. -/
theorem id_eq_iff {story : Json} (h : StoryRecord.ofJson story key = .ok r) :
    r.id = key ↔ NamesNoOther story key := by
  have hid := yields_id story key r h
  unfold StoryAction.textOr at hid
  unfold NamesNoOther
  split at hid
  · next htruthy => rw [imp_iff_right htruthy, hid, Except.ok.injEq]
  · next hnot => exact iff_of_true (Except.ok.inj hid).symm fun htruthy ↦ absurd htruthy hnot

/-- How a story of a document is read under its key. -/
def IsReadAs (key : Text) (story : Json) (r : StoryRecord) : Prop :=
  StoryRecord.ofJson story key = .ok r

private theorem related_readStories (stories : Fields Json) :
    Yields (Fields.Related IsReadAs (stories.filter (·.2.isObject)))
      (ReadError.lift (readStories stories)) := by
  intro records h
  have hread : readStories stories = .ok records := by
    cases hread : readStories stories with
    | error e => rw [hread] at h; cases h
    | ok found => rw [hread] at h; exact congrArg Except.ok (Except.ok.inj h)
  refine (forall₂_of_mapM hread).imp fun (key, story) record hrecord ↦ ?_
  cases hr : StoryRecord.ofJson story key with
  | error e =>
    simp only [hr] at hrecord
    cases hrecord
  | ok r =>
    simp only [hr] at hrecord
    cases hrecord
    exact ⟨rfl, hr⟩

/-- The records of a document stand under the keys of its stories, each as it is read. -/
theorem related_ofJson (now : Timestamp) (value : Json) :
    Yields (fun c ↦ Fields.Related IsReadAs (storyObjects value) c.stories.fields)
      (ofJson now value) := by
  unfold ofJson storyObjects
  split
  · next stories hstories =>
    rw [hstories]
    exact (related_readStories stories).bind fun records hrecords ↦
      .bind_any fun version ↦ .ok hrecords.ofList
  · rintro c ⟨⟩

/-- The records of a document have their keys for identifiers, or are replaced, exactly if this is
so of the stories that name another identifier. -/
theorem forall_get?_ofJson_iff {now : Timestamp} {value : Json} (h : ofJson now value = .ok c)
    (P : Text → Prop) :
    (∀ key r, c.stories.get? key = some r → P key ∨ r.id = key) ↔
      ∀ key story, (storyObjects value).get? key = some story → P key ∨ NamesNoOther story key := by
  refine forall_congr' fun key ↦ ?_
  have hfound := (related_ofJson now value c h).get? key
  change (∀ r, Fields.get? c.stories.fields key = some r → _) ↔ _
  generalize Fields.get? c.stories.fields key = found,
    (storyObjects value).get? key = stated at hfound ⊢
  cases hfound with
  | none => simp
  | some hread => simp only [Option.some.injEq, forall_eq', id_eq_iff hread]

/-- A catalog that is made empty or read from a document, with records added to it, has every record
under its identifier exactly if all stories of the document that name another identifier than their
key are replaced. -/
theorem isKeyed_addAll_iff (records : List StoryRecord) :
    (∀ source now, ((empty source now).addAll records).IsKeyed) ∧
      ∀ {now value c}, ofJson now value = .ok c → ((c.addAll records).IsKeyed ↔
        ∀ key story, (storyObjects value).get? key = some story →
          key ∈ records.map (·.id) ∨ NamesNoOther story key) := by
  refine ⟨fun source now ↦ (isKeyed_empty source now).addAll records, fun h ↦ ?_⟩
  rw [isKeyed_addAll]
  exact forall_get?_ofJson_iff h (· ∈ records.map (·.id))

/-- A document of two stories, both of which name an identifier other than their key. -/
def documentOfOneId : Json :=
  .object [("stories", .object [
    ("a--b", .object [("id", .string "x--y"), ("title", .string "A"), ("name", .string "B")]),
    ("c--d", .object [("id", .string "x--y"), ("title", .string "C"), ("name", .string "D")])])]

/-- The records that take the places of both stories. -/
def replacements : List StoryRecord :=
  [{ id := "a--b", title := "A", name := "B" }, { id := "c--d", title := "C", name := "D" }]

/-- With records in the places of its stories, the document gives a catalog with every record under
its identifier. -/
theorem isKeyed_addAll_replacements :
    ∃ c, ofJson .secondOfJanuary documentOfOneId = .ok c ∧ (c.addAll replacements).IsKeyed := by
  have haccepted : (ofJson .secondOfJanuary documentOfOneId).isOk = true := by decide
  cases hread : ofJson .secondOfJanuary documentOfOneId with
  | error e =>
    rw [hread] at haccepted
    cases haccepted
  | ok c =>
    refine ⟨c, rfl, ((isKeyed_addAll_iff replacements).2 hread).mpr fun key story hget ↦ .inl ?_⟩
    have hkeys : Fields.keys (storyObjects documentOfOneId) = replacements.map (·.id) := by decide
    rw [← hkeys, Fields.mem_keys_iff, hget]
    rfl

/-- The document is accepted, and its catalog has two records with one identifier. -/
theorem not_isKeyed_documentOfOneId :
    ∃ c, ofJson .secondOfJanuary documentOfOneId = .ok c ∧ c.stories.keys = ["a--b", "c--d"] ∧
      c.records.map (·.id) = ["x--y", "x--y"] ∧ ¬ c.IsKeyed := by
  refine ⟨_, rfl, by decide, by decide, fun h ↦ absurd h.nodup_ids (by decide)⟩

end Catalog

end StoryCatalog
