import Mathlib.Data.List.Forall2
import StoryCatalog.Index.Basic
import StoryCatalog.Proofs.Fields

/-!
# Entries of an index apart from each other

Each entry of an index stands for itself. Entries that are refused may be taken out of a document
beforehand (`ofJson_withoutRefused`), and the others come, in order and each as it is on its own,
from one of the two maps of the document (`isReadAs_all`).
-/

namespace StoryCatalog.StoryIndex

variable {document stored : Fields Json} {index : StoryIndex}

/-- The keys under which a document keeps its entries. -/
def entryKeys : List Text := ["entries", "stories"]

/-- Whether the value of a field is an entry on its own. -/
def isEntry (field : Text × Json) : Bool := (IndexEntry.ofJson field.2).isOk

/-- A map of entries without the refused ones. What is no map stays as it is. -/
def dropRefused : Json → Json
  | .object stored => .object (stored.filter isEntry)
  | value => value

/-- A document without the entries that are refused, under whichever key they stand. -/
def withoutRefused (document : Fields Json) : Fields Json :=
  document.map fun field ↦
    (field.1, if field.1 ∈ entryKeys then dropRefused field.2 else field.2)

/-- The map under a key of a document, empty if there is none. -/
def mapAt (document : Fields Json) (key : Text) : Fields Json :=
  ((Json.object document).field key).fields

/-- The map from which an index has its entries: the older one where the other has none that is
accepted. -/
def mapUsed (document : Fields Json) : Fields Json :=
  if (mapAt document "entries").any isEntry then mapAt document "entries"
  else mapAt document "stories"

/-- In each map of a document an identifier stands once. -/
def HasDistinctIds (document : Fields Json) : Prop :=
  ∀ key ∈ entryKeys, (Fields.keys (mapAt document key)).Nodup

instance (document : Fields Json) : Decidable (HasDistinctIds document) :=
  inferInstanceAs (Decidable (∀ key ∈ entryKeys, _))

/-- A field of an index is a field of a map with the entry that its value is on its own. -/
def IsReadAs (field : Text × Json) (entry : Text × IndexEntry) : Prop :=
  entry.1 = field.1 ∧ IndexEntry.ofJson field.2 = .ok entry.2

/-! ### The entries of a map -/

/-- The field of an index that a field of a map gives. -/
def keep? (field : Text × Json) : Option (Text × IndexEntry) :=
  match IndexEntry.ofJson field.2 with
  | .ok entry => some (field.1, entry)
  | .error _ => none

theorem validEntries_eq (stored : Fields Json) :
    validEntries stored = OrderedMap.ofList (stored.filterMap keep?) := rfl

theorem isEntry_iff {field : Text × Json} :
    isEntry field ↔ ∃ entry, IndexEntry.ofJson field.2 = .ok entry := by
  rw [isEntry]
  cases IndexEntry.ofJson field.2 <;> simp [Except.isOk, Except.toBool]

theorem keep?_of_isEntry {field : Text × Json} (h : isEntry field) :
    ∃ entry, keep? field = some entry ∧ IsReadAs field entry := by
  obtain ⟨entry, hentry⟩ := isEntry_iff.mp h
  exact ⟨(field.1, entry), by rw [keep?, hentry], rfl, hentry⟩

theorem keep?_of_not_isEntry {field : Text × Json} (h : ¬ isEntry field) :
    keep? field = none := by
  rw [keep?]
  split
  · next entry hentry => exact absurd (isEntry_iff.mpr ⟨entry, hentry⟩) h
  · rfl

theorem filterMap_keep?_filter (stored : Fields Json) :
    (stored.filter isEntry).filterMap keep? = stored.filterMap keep? := by
  rw [List.filterMap_filter]
  congr 1
  funext field
  split
  · rfl
  · next h => exact (keep?_of_not_isEntry h).symm

/-- The entries that are kept of a map stand in its order, each as it is on its own. -/
theorem isReadAs_filterMap (stored : Fields Json) :
    List.Forall₂ IsReadAs (stored.filter isEntry) (stored.filterMap keep?) := by
  induction stored with
  | nil => exact .nil
  | cons field rest ih =>
    by_cases h : isEntry field
    · obtain ⟨entry, hkeep, hread⟩ := keep?_of_isEntry h
      rw [List.filter_cons_of_pos h, List.filterMap_cons_some hkeep]
      exact .cons hread ih
    · rw [List.filter_cons_of_neg h, List.filterMap_cons_none (keep?_of_not_isEntry h)]
      exact ih

theorem keys_of_isReadAs {entries : Fields IndexEntry} (h : List.Forall₂ IsReadAs stored entries) :
    Fields.keys entries = Fields.keys stored := by
  induction h with
  | nil => rfl
  | cons hread _ ih => exact congrArg₂ List.cons hread.1 ih

theorem isEmpty_of_isReadAs {entries : Fields IndexEntry}
    (h : List.Forall₂ IsReadAs (stored.filter isEntry) entries) :
    entries.isEmpty = !stored.any isEntry := by
  rw [Bool.eq_iff_iff, List.isEmpty_iff, ← List.length_eq_zero_iff, ← h.length_eq]
  simp

/-- Of a map in which each identifier stands once, nothing is lost but the refused entries. -/
theorem fields_validEntries (h : (Fields.keys stored).Nodup) :
    (validEntries stored).fields = stored.filterMap keep? := by
  rw [validEntries_eq]
  refine Fields.ofList_of_nodup ?_
  rw [keys_of_isReadAs (isReadAs_filterMap stored)]
  exact h.sublist (List.filter_sublist.map _)

theorem validEntries_filter (stored : Fields Json) :
    validEntries (stored.filter isEntry) = validEntries stored := by
  rw [validEntries_eq, filterMap_keep?_filter, validEntries_eq]

/-! ### Documents without refused entries -/

theorem entriesOf_dropRefused (value : Option Json) :
    entriesOf (value.map dropRefused) = entriesOf value := by
  cases value with
  | none => rfl
  | some value =>
    cases value with
    | object stored => exact congrArg Except.ok (validEntries_filter stored)
    | _ => rfl

theorem get?_withoutRefused (key : Text) :
    Fields.get? (withoutRefused document) key =
      (Fields.get? document key).map
        fun value ↦ if key ∈ entryKeys then dropRefused value else value :=
  Fields.get?_map_value (fun key value ↦ if key ∈ entryKeys then dropRefused value else value) key

theorem has_withoutRefused (key : Text) :
    Fields.has (withoutRefused document) key = Fields.has document key := by
  rw [Fields.has, get?_withoutRefused, Option.isSome_map, Fields.has]

theorem entriesOf_withoutRefused {key : Text} (h : key ∈ entryKeys) :
    entriesOf (Fields.get? (withoutRefused document) key) =
      entriesOf (Fields.get? document key) := by
  simp only [get?_withoutRefused, if_pos h]
  exact entriesOf_dropRefused _

/-- A document gives the same without its refused entries: the same index or the same error. -/
theorem ofJson_withoutRefused (document : Fields Json) :
    ofJson (.object (withoutRefused document)) = ofJson (.object document) := by
  have hversion : Fields.get? (withoutRefused document) "v" = Fields.get? document "v" := by
    have hkey : ("v" : Text) ∉ entryKeys := by decide
    simp [get?_withoutRefused, hkey]
  have hfields : ofFields (withoutRefused document) = ofFields document := by
    rw [ofFields, hversion, entriesOf_withoutRefused (by decide),
      entriesOf_withoutRefused (by decide), ofFields]
  rw [ofJson, hfields, ofJson]
  simp only [has_withoutRefused]

/-! ### The entries of an index -/

/-- The entries under a key are those of its map. -/
theorem isReadAs_entriesOf {key : Text} {entries : OrderedMap IndexEntry}
    (h : entriesOf (Fields.get? document key) = .ok entries)
    (hdistinct : (Fields.keys (mapAt document key)).Nodup) :
    List.Forall₂ IsReadAs ((mapAt document key).filter isEntry) entries.fields := by
  unfold mapAt Json.field at hdistinct ⊢
  dsimp only at hdistinct ⊢
  cases hvalue : Fields.get? document key with
  | none =>
    rw [hvalue] at h
    cases h
    exact .nil
  | some value =>
    rw [hvalue] at h hdistinct
    cases value with
    | object stored =>
      cases h
      have hfields : (validEntries stored).fields = stored.filterMap keep? :=
        fields_validEntries hdistinct
      rw [hfields]
      exact isReadAs_filterMap stored
    | _ => cases h

/-- An index is read from both maps of its document. -/
theorem entriesOf_of_ofJson (h : ofJson (.object document) = .ok index) :
    entriesOf (Fields.get? document "entries") = .ok index.entries ∧
      entriesOf (Fields.get? document "stories") = .ok index.stories := by
  simp only [ofJson] at h
  split at h
  · cases h
  split at h
  · cases h
  unfold ofFields at h
  dsimp only at h
  split at h
  · next hentries hstories =>
    cases h
    exact ⟨hentries, hstories⟩
  · cases h

/-- The entries of an index are those of the map used, each as it is on its own. -/
theorem isReadAs_all (h : ofJson (.object document) = .ok index)
    (hdistinct : HasDistinctIds document) :
    List.Forall₂ IsReadAs ((mapUsed document).filter isEntry) index.all.fields := by
  obtain ⟨hentries, hstories⟩ := entriesOf_of_ofJson h
  have hcurrent := isReadAs_entriesOf hentries (hdistinct "entries" (by decide))
  have holder := isReadAs_entriesOf hstories (hdistinct "stories" (by decide))
  rw [mapUsed, all, isEmpty_of_isReadAs hcurrent]
  cases (mapAt document "entries").any isEntry with
  | true => exact hcurrent
  | false => exact holder

/-- Refused entries may be taken out of a document beforehand: it gives the same, and what an index
then holds are the entries of the map used that are accepted on their own, in order. -/
theorem ofJson_isolates (document : Fields Json) (hdistinct : HasDistinctIds document) :
    ofJson (.object (withoutRefused document)) = ofJson (.object document) ∧
      ∀ index, ofJson (.object document) = .ok index →
        List.Forall₂ IsReadAs ((mapUsed document).filter isEntry) index.all.fields :=
  ⟨ofJson_withoutRefused document, fun _ h ↦ isReadAs_all h hdistinct⟩

/-- A document with entries under both keys, some of them refused. -/
def mixedDocument : Fields Json :=
  [("v", .int 5),
    ("entries", .object [("bad", .int 5),
      ("a--b", .object [("title", .string "A"), ("name", .string "B"), ("tags", .string "dev")]),
      ("c--d", .object [("title", .object [])])]),
    ("stories", .object
      [("old--one", .object [("kind", .string "Old"), ("story", .string "One")])])]

/-- Of the document only the entry that is accepted is left. -/
theorem ofJson_isolates_mixed :
    HasDistinctIds mixedDocument ∧
      ∃ index, ofJson (.object mixedDocument) = .ok index ∧
        ofJson (.object (withoutRefused mixedDocument)) = .ok index ∧
        index.all.fields = [(("a--b" : Text), { title := "A", name := "B", tags := ["dev"] })] ∧
        List.Forall₂ IsReadAs ((mapUsed mixedDocument).filter isEntry) index.all.fields := by
  have hdistinct : HasDistinctIds mixedDocument := by decide
  obtain ⟨hsame, hread⟩ := ofJson_isolates mixedDocument hdistinct
  have hindex : ofJson (.object mixedDocument) = .ok _ := rfl
  exact ⟨hdistinct, _, hindex, hsame.trans hindex, by decide +kernel, hread _ hindex⟩

end StoryCatalog.StoryIndex
