import StoryCatalog.Proofs.Catalog.Writing
import StoryCatalog.Proofs.Story.Tags

/-!
# The catalog of a list of records

Of records that are added to a catalog, the last one with an identifier stands under it
(`get?_addAll`). The keys of `Catalog.ofRecords` are the identifiers of the records in the order in
which they first come (`keys_ofRecords`).
-/

namespace StoryCatalog.Catalog

variable {source : Provenance} {now : Timestamp} {records : List StoryRecord} {c : Catalog}
  {r : StoryRecord} {key : Text}

/-! ### Added records -/

/-- The catalog after records have been added, one after another. -/
def addAll (c : Catalog) (records : List StoryRecord) : Catalog := records.foldl add c

theorem get?_add :
    (c.add r).stories.get? key = if r.id = key then some r else c.stories.get? key := by
  split
  · next hid =>
    subst hid
    exact OrderedMap.get?_insert_self ..
  · next hid => exact OrderedMap.get?_insert_of_ne _ r hid

/-- Under a key stands the last record with this identifier that was added, else what stood
there. -/
theorem get?_addAll (c : Catalog) (records : List StoryRecord) (key : Text) :
    (c.addAll records).stories.get? key =
      (records.reverse.find? (·.id == key)).or (c.stories.get? key) := by
  induction records using List.reverseRecOn with
  | nil => rfl
  | append_singleton records r ih =>
    rw [addAll, List.foldl_concat, get?_add, List.reverse_append, List.reverse_singleton,
      List.singleton_append, List.find?_cons]
    by_cases hid : r.id = key
    · rw [if_pos hid, beq_iff_eq.mpr hid]
      rfl
    · rw [if_neg hid, beq_false_of_ne hid]
      exact ih

/-! ### Catalogs of records -/

theorem ofRecords_concat (source : Provenance) (now : Timestamp) (records : List StoryRecord)
    (r : StoryRecord) :
    ofRecords source now (records ++ [r]) = (ofRecords source now records).add r :=
  List.foldl_concat ..

/-- The stories are the fields of the records under their identifiers. -/
theorem fields_ofRecords :
    (ofRecords source now records).stories.fields = .ofList (records.map fun r ↦ (r.id, r)) := by
  induction records using List.reverseRecOn with
  | nil => rfl
  | append_singleton records r ih =>
    rw [ofRecords_concat, List.map_append, List.map_singleton, Fields.ofList_append, ← ih]
    rfl

/-- The identifiers, each in the place where it first comes. -/
theorem keys_ofRecords :
    (ofRecords source now records).stories.keys = dedupeTags (records.map (·.id)) := by
  rw [OrderedMap.keys, fields_ofRecords, Fields.keys_ofList, Fields.keys, List.map_map]
  rfl

/-- Under an identifier stands the last record that has it. -/
theorem get?_ofRecords (id : Text) :
    (ofRecords source now records).stories.get? id = records.reverse.find? (·.id == id) :=
  (get?_addAll (empty source now) records id).trans Option.or_none

end StoryCatalog.Catalog
