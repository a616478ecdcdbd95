import Mathlib.Data.List.Basic
import StoryCatalog.Extraction.Strategy
import StoryCatalog.Proofs.Index.Isolation
import StoryCatalog.Proofs.Story.Sources

/-!
# The two forms of an index

An older index keeps its entries under `stories`, with the title under `kind` and the name under
`story`. Both forms have one reader, for which an empty text gives way to a value under its older
key. The forms of one map of entries agree exactly if this happens to no entry that is accepted
without it (`formsAgree_iff`).
-/

namespace StoryCatalog

namespace IndexEntry

variable {fields : Fields Json} {key older title name : Text} {entry : IndexEntry}

/-- An entry in its older form. -/
def olderForm (fields : Fields Json) : Fields Json :=
  Fields.rename (Fields.rename fields "title" "kind") "name" "story"

/-- Title and name of an entry are texts. -/
def IsTitled (fields : Fields Json) : Prop :=
  ∃ title name, Fields.get? fields "title" = some (.string title) ∧
    Fields.get? fields "name" = some (.string name)

/-- A value under an older key takes the place of an empty text. -/
def StandsIn (fields : Fields Json) (key older : Text) : Prop :=
  Fields.get? fields key = some (.string []) ∧
    ∃ value, Fields.get? fields older = some value ∧ value.isTruthy = true

/-- The title or the name of an entry is empty and stands under its older key too. -/
def IsFilled (fields : Fields Json) : Prop :=
  StandsIn fields "title" "kind" ∨ StandsIn fields "name" "story"

/-! ### Texts under either key -/

/-- The text of a scalar is the one that is displayed, but for `null`. -/
theorem display_of_scalarText {value : Json} {t : Text} (hnull : value ≠ .null)
    (h : scalarText value = .ok t) : Json.display value = .ok t := by
  unfold scalarText at h
  split at h
  · exact absurd rfl hnull
  · simpa [Json.display] using h
  · simpa [Json.display, Json.displayInner] using h
  · next n =>
    split at h
    · next s hs =>
      cases h
      cases n with
      | float x => simpa [Json.display, Json.displayInner, Number.text?] using hs
      | int n =>
        simp only [Number.text?, Number.intText?, Option.ite_none_right_eq_some] at hs
        simp only [Json.display, Json.displayInner, if_pos hs.1, Option.some.inj hs.2]
    · cases h
  · cases h

theorem scalarText_ne_nil {value : Json} {t : Text} (htruthy : value.isTruthy = true)
    (h : scalarText value = .ok t) : t ≠ [] := by
  have hnull : value ≠ .null := by
    rintro rfl
    cases htruthy
  refine Json.display_ne_nil ?_ (display_of_scalarText hnull h)
  cases value with
  | null => exact absurd rfl hnull
  | string s => simpa [isBlankTag, Json.isTruthy] using htruthy
  | _ => rfl

/-- A text under the older key alone is read, also where it is empty. -/
theorem textField_of_older {t : Text} (hkey : Fields.get? fields key = none)
    (holder : Fields.get? fields older = some (.string t)) :
    textField (withOlder fields key older) = .ok t := by
  unfold withOlder
  rw [hkey, holder]
  cases t <;> rfl

theorem textField_of_not_standsIn {t : Text} (hkey : Fields.get? fields key = some (.string t))
    (h : ¬ StandsIn fields key older) : textField (withOlder fields key older) = .ok t := by
  unfold withOlder
  dsimp only
  split
  · next value hvalue =>
    rw [hkey, if_pos]
    · rfl
    · cases t with
      | cons c rest => rfl
      | nil =>
        have hfalsy : value.isTruthy = false :=
          Bool.eq_false_iff.mpr fun htruthy ↦ h ⟨hkey, value, hvalue, htruthy⟩
        rw [hfalsy]
        rfl
  · rw [hkey]
    rfl

theorem ne_nil_of_standsIn {t : Text} (h : StandsIn fields key older)
    (ht : textField (withOlder fields key older) = .ok t) : t ≠ [] := by
  obtain ⟨hkey, value, hvalue, htruthy⟩ := h
  unfold withOlder at ht
  rw [hkey, hvalue] at ht
  simp only [Option.getD_some, htruthy] at ht
  exact scalarText_ne_nil htruthy ht

/-! ### Entries in both forms -/

/-- All of an entry but its title and its name is read from the fields. -/
def ReadsRest (fields : Fields Json) (entry : IndexEntry) : Prop :=
  textField (Fields.get? fields "id") = .ok entry.id ∧
    (importField fields).2 = .ok entry.importPath ∧
    typeField (Fields.get? fields "type") = .ok entry.type ∧
    tagsField (Fields.get? fields "tags") = .ok entry.tags

theorem ofFields_ok_iff :
    ofFields fields = .ok entry ↔
      textField (withOlder fields "title" "kind") = .ok entry.title ∧
        textField (withOlder fields "name" "story") = .ok entry.name ∧ ReadsRest fields entry := by
  unfold ofFields ReadsRest
  dsimp only
  constructor
  · intro h
    split at h
    · next hid htitle hname himport htype htags =>
      cases h
      exact ⟨htitle, hname, hid, himport, htype, htags⟩
    · cases h
  · rintro ⟨htitle, hname, hid, himport, htype, htags⟩
    rw [htitle, hname, hid, himport, htype, htags]

/-! ### The older form -/

theorem get?_olderForm (key : Text) :
    Fields.get? (olderForm fields) key =
      if key = "story" then Fields.get? fields "name"
      else if key = "name" then none
      else if key = "kind" then Fields.get? fields "title"
      else if key = "title" then none
      else Fields.get? fields key := by
  have hkind : ("name" : Text) ≠ "kind" := by decide
  have htitle : ("name" : Text) ≠ "title" := by decide
  rw [olderForm, Fields.get?_rename (by decide), Fields.get?_rename (by decide),
    Fields.get?_rename (by decide), if_neg hkind, if_neg htitle]

theorem readsRest_olderForm : ReadsRest (olderForm fields) entry ↔ ReadsRest fields entry := by
  have hget : ∀ key ∉ (["title", "kind", "name", "story"] : List Text),
      Fields.get? (olderForm fields) key = Fields.get? fields key := by
    intro key hkey
    simp only [List.mem_cons, List.not_mem_nil, or_false, not_or] at hkey
    obtain ⟨htitle, hkind, hname, hstory⟩ := hkey
    rw [get?_olderForm, if_neg hstory, if_neg hname, if_neg hkind, if_neg htitle]
  have himport : importField (olderForm fields) = importField fields := by
    rw [importField, hget "importPath" (by decide), hget "import_path" (by decide), importField]
  rw [ReadsRest, himport, hget "id" (by decide), hget "type" (by decide), hget "tags" (by decide),
    ReadsRest]

variable (htitle : Fields.get? fields "title" = some (.string title))
  (hname : Fields.get? fields "name" = some (.string name))

include htitle hname

/-- The older form of an entry has its title and its name, whatever they are. -/
theorem ofFields_olderForm_ok_iff :
    ofFields (olderForm fields) = .ok entry ↔
      title = entry.title ∧ name = entry.name ∧ ReadsRest fields entry := by
  have hkind : textField (withOlder (olderForm fields) "title" "kind") = .ok title :=
    textField_of_older (get?_olderForm _) ((get?_olderForm _).trans htitle)
  have hstory : textField (withOlder (olderForm fields) "name" "story") = .ok name :=
    textField_of_older (get?_olderForm _) ((get?_olderForm _).trans hname)
  rw [ofFields_ok_iff, readsRest_olderForm, hkind, hstory, Except.ok.injEq, Except.ok.injEq]

theorem ofFields_ok_iff_of_not_isFilled (h : ¬ IsFilled fields) :
    ofFields fields = .ok entry ↔
      title = entry.title ∧ name = entry.name ∧ ReadsRest fields entry := by
  rw [IsFilled, not_or] at h
  rw [ofFields_ok_iff, textField_of_not_standsIn htitle h.1, textField_of_not_standsIn hname h.2,
    Except.ok.injEq, Except.ok.injEq]

/-- An entry that is accepted is accepted in its older form. -/
theorem exists_olderForm_of_ofFields (h : ofFields fields = .ok entry) :
    ofFields (olderForm fields) = .ok { entry with title, name } :=
  (ofFields_olderForm_ok_iff htitle hname).mpr ⟨rfl, rfl, (ofFields_ok_iff.mp h).2.2⟩

/-- An entry with a filled text is not the one of its older form. -/
theorem not_isFilled_of_olderForm (hsame : ofFields fields = .ok entry)
    (holder : ofFields (olderForm fields) = .ok entry) : ¬ IsFilled fields := by
  obtain ⟨rfl, rfl, -⟩ := (ofFields_olderForm_ok_iff htitle hname).mp holder
  obtain ⟨hread, hreadName, -⟩ := ofFields_ok_iff.mp hsame
  rintro (hfilled | hfilled)
  · have hnil := htitle.symm.trans hfilled.1
    exact ne_nil_of_standsIn hfilled hread (Json.string.inj (Option.some.inj hnil))
  · have hnil := hname.symm.trans hfilled.1
    exact ne_nil_of_standsIn hfilled hreadName (Json.string.inj (Option.some.inj hnil))

omit htitle hname

/-- Both forms of an entry give the same exactly if the older one is refused or no text of the
other one is filled. -/
theorem toOption_olderForm_iff (h : IsTitled fields) :
    (ofFields fields).toOption = (ofFields (olderForm fields)).toOption ↔
      ((ofFields (olderForm fields)).isOk → ¬ IsFilled fields) := by
  obtain ⟨title, name, htitle, hname⟩ := h
  cases holder : ofFields (olderForm fields) with
  | ok entry =>
    have hread := (ofFields_olderForm_ok_iff htitle hname).mp holder
    constructor
    · intro hsame _
      cases hcurrent : ofFields fields with
      | error _ => rw [hcurrent] at hsame; cases hsame
      | ok other =>
        rw [hcurrent] at hsame
        cases hsame
        exact not_isFilled_of_olderForm htitle hname hcurrent holder
    · intro hnot
      rw [(ofFields_ok_iff_of_not_isFilled htitle hname (hnot rfl)).mpr hread]
  | error faults =>
    refine iff_of_true ?_ nofun
    cases hsame : ofFields fields with
    | error _ => rfl
    | ok entry =>
      rw [exists_olderForm_of_ofFields htitle hname hsame] at holder
      cases holder

end IndexEntry

namespace StoryIndex

variable {version : Json} {entries : OrderedMap (Fields Json)} {key : Text}

/-- A document with entries under a key. -/
def documentUnder (key : Text) (version : Json) (entries : OrderedMap (Fields Json)) : Json :=
  .object [("v", version), (key, .object (entries.mapValues .object).fields)]

/-- The document of entries. -/
def currentDocument (version : Json) (entries : OrderedMap (Fields Json)) : Json :=
  documentUnder "entries" version entries

/-- The older document of entries, each in its older form. -/
def olderDocument (version : Json) (entries : OrderedMap (Fields Json)) : Json :=
  documentUnder "stories" version (entries.mapValues IndexEntry.olderForm)

/-- Both documents of entries are accepted or refused, and if they are accepted, they give the same
entries and the same catalogs. -/
structure FormsAgree (version : Json) (entries : OrderedMap (Fields Json)) : Prop where
  accepted : (ofJson (currentDocument version entries)).isOk =
    (ofJson (olderDocument version entries)).isOk
  all : ∀ current older, ofJson (currentDocument version entries) = .ok current →
    ofJson (olderDocument version entries) = .ok older → current.all = older.all
  catalog : ∀ current older, ofJson (currentDocument version entries) = .ok current →
    ofJson (olderDocument version entries) = .ok older →
    ∀ provenance now, Strategy.catalogOfIndex provenance now current =
      Strategy.catalogOfIndex provenance now older

/-! ### What the documents give -/

/-- The entries that are accepted. -/
def accepted (entries : OrderedMap (Fields Json)) : OrderedMap IndexEntry :=
  validEntries (entries.mapValues .object).fields

theorem ofFields_of_version {document : Fields Json} {v : Option Int}
    {current older : OrderedMap IndexEntry}
    (hentries : entriesOf (Fields.get? document "entries") = .ok current)
    (hstories : entriesOf (Fields.get? document "stories") = .ok older)
    (hversion : versionOf (Fields.get? document "v") = .ok v) :
    ofFields document = .ok ⟨v, current, older⟩ := by
  rw [ofFields, hversion, hentries, hstories]

theorem ofFields_of_version_error {document : Fields Json} {fault : Fault}
    (hversion : versionOf (Fields.get? document "v") = .error fault) :
    (ofFields document).isOk = false := by
  rw [ofFields, hversion]
  rfl

theorem ofJson_currentDocument {v : Option Int} (h : versionOf (some version) = .ok v) :
    ofJson (currentDocument version entries) = .ok ⟨v, accepted entries, .empty⟩ :=
  ofFields_of_version rfl rfl h

theorem ofJson_olderDocument {v : Option Int} (h : versionOf (some version) = .ok v) :
    ofJson (olderDocument version entries) =
      .ok ⟨v, .empty, accepted (entries.mapValues IndexEntry.olderForm)⟩ :=
  ofFields_of_version rfl rfl h

/-- A document is accepted exactly if its version is one. -/
theorem isOk_currentDocument :
    (ofJson (currentDocument version entries)).isOk = (versionOf (some version)).isOk := by
  cases hversion : versionOf (some version) with
  | ok v => rw [ofJson_currentDocument hversion]; rfl
  | error fault => exact ofFields_of_version_error hversion

theorem isOk_olderDocument :
    (ofJson (olderDocument version entries)).isOk = (versionOf (some version)).isOk := by
  cases hversion : versionOf (some version) with
  | ok v => rw [ofJson_olderDocument hversion]; rfl
  | error fault => exact ofFields_of_version_error hversion

/-! ### Entries of both documents -/

theorem fields_accepted :
    (accepted entries).fields = entries.fields.filterMap fun field ↦
      (IndexEntry.ofFields field.2).toOption.map (field.1, ·) := by
  have hkeep : ∀ field : Text × Fields Json, keep? (field.1, .object field.2) =
      (IndexEntry.ofFields field.2).toOption.map (field.1, ·) := by
    intro field
    rw [keep?, IndexEntry.ofJson]
    cases IndexEntry.ofFields field.2 <;> rfl
  have hmap : (entries.mapValues Json.object).fields.filterMap keep? = _ := List.filterMap_map
  rw [accepted, fields_validEntries (entries.mapValues _).nodup_keys, hmap]
  exact List.filterMap_congr fun field _ ↦ hkeep field

theorem fields_accepted_olderForm :
    (accepted (entries.mapValues IndexEntry.olderForm)).fields =
      entries.fields.filterMap fun field ↦
        (IndexEntry.ofFields (IndexEntry.olderForm field.2)).toOption.map (field.1, ·) := by
  rw [fields_accepted]
  exact List.filterMap_map

/-- Accepted entries are the same in both forms if and only if each entry is. -/
theorem accepted_olderForm_iff :
    accepted entries = accepted (entries.mapValues IndexEntry.olderForm) ↔
      ∀ fields ∈ entries.values, (IndexEntry.ofFields fields).toOption =
        (IndexEntry.ofFields (IndexEntry.olderForm fields)).toOption := by
  constructor
  · intro hsame fields hfields
    obtain ⟨⟨key, value⟩, hmem, rfl⟩ := List.mem_map.mp hfields
    have hget := Fields.get?_of_mem entries.nodup_keys hmem
    have hlookup := congrArg (Fields.get? · key) (congrArg OrderedMap.fields hsame)
    rw [fields_accepted, fields_accepted_olderForm,
      Fields.get?_filterMap entries.nodup_keys fun _ f ↦ (IndexEntry.ofFields f).toOption,
      Fields.get?_filterMap entries.nodup_keys fun _ f ↦
        (IndexEntry.ofFields (IndexEntry.olderForm f)).toOption, hget] at hlookup
    exact hlookup
  · intro h
    refine OrderedMap.ext ?_
    rw [fields_accepted, fields_accepted_olderForm]
    exact List.filterMap_congr fun field hfield ↦ by rw [h _ (List.mem_map_of_mem hfield)]

theorem all_current {v : Option Int} (current : OrderedMap IndexEntry) :
    all ⟨v, current, .empty⟩ = current := by
  unfold all
  split
  · next h => exact OrderedMap.ext (List.isEmpty_iff.mp h).symm
  · rfl

/-! ### Agreement -/

/-- Documents with no version agree, for neither is accepted. -/
theorem formsAgree_of_version_error {fault : Fault}
    (h : versionOf (some version) = .error fault) : FormsAgree version entries := by
  have hrefused : (ofJson (currentDocument version entries)).isOk = false :=
    ofFields_of_version_error h
  refine ⟨isOk_currentDocument.trans isOk_olderDocument.symm, ?_, ?_⟩
  all_goals
    intro current older hcurrent
    rw [hcurrent] at hrefused
    cases hrefused

/-- Documents with a version agree exactly if the same entries are accepted of both. -/
theorem formsAgree_iff_of_version {v : Option Int} (h : versionOf (some version) = .ok v) :
    FormsAgree version entries ↔
      accepted entries = accepted (entries.mapValues IndexEntry.olderForm) := by
  have hcurrent : ofJson (currentDocument version entries) = .ok _ := ofJson_currentDocument h
  have holder : ofJson (olderDocument version entries) = .ok _ := ofJson_olderDocument h
  constructor
  · intro hagree
    have hall := hagree.all _ _ hcurrent holder
    rwa [all_current] at hall
  · intro hsame
    have hall : ∀ current older, ofJson (currentDocument version entries) = .ok current →
        ofJson (olderDocument version entries) = .ok older → current.all = older.all := by
      intro current older hc ho
      rw [hcurrent] at hc
      rw [holder] at ho
      cases hc
      cases ho
      rw [all_current]
      exact hsame
    refine ⟨isOk_currentDocument.trans isOk_olderDocument.symm, hall, ?_⟩
    intro current older hc ho provenance now
    rw [Strategy.catalogOfIndex, hall current older hc ho, Strategy.catalogOfIndex]

/-- The forms of entries with titles and names agree exactly if no text is filled of an entry that
is accepted without it, or if no document of them is accepted. -/
theorem formsAgree_iff (htitled : ∀ fields ∈ entries.values, IndexEntry.IsTitled fields) :
    FormsAgree version entries ↔
      ((ofJson (currentDocument version entries)).isOk →
        ∀ fields ∈ entries.values, (IndexEntry.ofFields (IndexEntry.olderForm fields)).isOk →
          ¬ IndexEntry.IsFilled fields) := by
  have hentries : accepted entries = accepted (entries.mapValues IndexEntry.olderForm) ↔
      ∀ fields ∈ entries.values, (IndexEntry.ofFields (IndexEntry.olderForm fields)).isOk →
        ¬ IndexEntry.IsFilled fields :=
    accepted_olderForm_iff.trans <| forall₂_congr fun fields hfields ↦
      IndexEntry.toOption_olderForm_iff (htitled fields hfields)
  rw [isOk_currentDocument, ← hentries]
  cases hversion : versionOf (some version) with
  | error fault => exact iff_of_true (formsAgree_of_version_error hversion) nofun
  | ok v =>
    rw [formsAgree_iff_of_version hversion]
    exact ⟨fun hsame _ ↦ hsame, fun hsame ↦ hsame rfl⟩

/-! ### A title under both keys -/

/-- An entry with a title under both keys. -/
def bothTitles (title : Text) : Fields Json :=
  [("kind", .string "K"), ("title", .string title), ("name", .string "B")]

/-- An entry with empty texts and an identifier of its own. -/
def emptyTexts : Fields Json :=
  [("id", .string "other"), ("title", .string []), ("name", .string [])]

/-- A map of both entries. -/
def bothEntries (title : Text) : OrderedMap (Fields Json) :=
  .ofList [("a--b", bothTitles title), ("c--d", emptyTexts)]

private theorem isTitled_bothEntries (title : Text) :
    ∀ fields ∈ (bothEntries title).values, IndexEntry.IsTitled fields := by
  have hvalues : (bothEntries title).values = [bothTitles title, emptyTexts] := rfl
  rw [hvalues]
  exact List.forall_mem_cons.mpr
    ⟨⟨_, _, rfl, rfl⟩, List.forall_mem_singleton.mpr ⟨_, _, rfl, rfl⟩⟩

/-- Empty texts that stand alone are the same in both forms, and another title hides what stands
under its older key. -/
theorem formsAgree_titled :
    (∀ fields ∈ (bothEntries "A").values, IndexEntry.IsTitled fields) ∧
      FormsAgree (.int 5) (bothEntries "A") := by
  have htitled := isTitled_bothEntries "A"
  refine ⟨htitled, (formsAgree_iff htitled).mpr fun _ fields hfields _ ↦ ?_⟩
  have hvalues : (bothEntries "A").values = [bothTitles "A", emptyTexts] := rfl
  rw [hvalues, List.mem_cons, List.mem_singleton] at hfields
  rcases hfields with rfl | rfl
  · rintro (⟨htitle, -⟩ | ⟨hname, -⟩)
    · exact absurd (Json.string.inj (Option.some.inj htitle)) (by decide)
    · exact absurd (Json.string.inj (Option.some.inj hname)) (by decide)
  · rintro (⟨-, value, hvalue, -⟩ | ⟨-, value, hvalue, -⟩) <;> cases hvalue

/-- An empty title gives way to the one under the older key, which the older form no longer has. -/
theorem not_formsAgree_emptyTitle :
    (∀ fields ∈ (bothEntries []).values, IndexEntry.IsTitled fields) ∧
      (accepted (bothEntries [])).values.map (·.title) = (["K", []] : List Text) ∧
      (accepted ((bothEntries []).mapValues IndexEntry.olderForm)).values.map (·.title) =
        ([[], []] : List Text) ∧
      ¬ FormsAgree (.int 5) (bothEntries []) := by
  have hcurrent : (accepted (bothEntries [])).values.map (·.title) = (["K", []] : List Text) := by
    decide +kernel
  have holder : (accepted ((bothEntries []).mapValues IndexEntry.olderForm)).values.map
      (·.title) = ([[], []] : List Text) := by
    decide +kernel
  refine ⟨isTitled_bothEntries [], hcurrent, holder, fun h ↦ ?_⟩
  have hall := h.all _ _ (ofJson_currentDocument rfl) (ofJson_olderDocument rfl)
  rw [all_current] at hall
  have hsame : accepted (bothEntries []) =
      accepted ((bothEntries []).mapValues IndexEntry.olderForm) := hall
  rw [hsame, holder] at hcurrent
  exact absurd hcurrent (by decide)

end StoryIndex

end StoryCatalog
