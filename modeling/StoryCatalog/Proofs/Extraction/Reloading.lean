import StoryCatalog.Proofs.Extraction.Persistence
import StoryCatalog.Proofs.Extraction.Outcome

/-!
# Catalogs that stay as they are

Reading a document fills in whatever is missing or odd, and does so once: the catalog that comes of
it has a normal form, which is read back as it is however often it is written
(`Catalog.ofJson_toJson_of_isObtained`). What the strategies give is of that form at once.
-/

namespace StoryCatalog

/-! ### What is read of a record -/

/-- An action is read with the key in the place of an empty name and an empty event. -/
theorem StoryAction.isRestorable_ofJson (key : Text) (value : Json) :
    Yields (IsRestorable key) (ofJson key value) := by
  have htext : ∀ value, Yields (fun t ↦ t = [] → key = []) (textOr value key) := by
    intro value t ht hnil
    by_contra hkey
    exact textOr_ne_nil hkey ht hnil
  refine (htext _).bind fun name hname ↦ ?_
  refine (htext _).bind fun action haction ↦ ?_
  exact .bind_any fun description ↦ .ok ⟨hname, haction⟩

/-- A record is read in its normal form. -/
theorem StoryRecord.isNormal_ofJson (value : Json) (key : Text) :
    Yields (IsNormal key) (ofJson value key) := by
  have hid : Yields (fun id ↦ id = [] → key = [])
      (StoryAction.textOr (value.field "id") key) := by
    intro id hid hnil
    by_contra hkey
    exact StoryAction.textOr_ne_nil hkey hid hnil
  have htype : Yields (fun type ↦ type ≠ []) (StoryAction.textOr (value.field "type") "story") :=
    fun type ↦ StoryAction.textOr_ne_nil (by decide)
  have hactions : ∀ readEntry : Text × Json → Except TooManyDigits (Text × StoryAction),
      (∀ entry, readEntry entry = StoryAction.ofJson entry.1 entry.2 >>= fun a ↦
        pure (entry.1, a)) →
      Yields (fun actions ↦ ∀ entry ∈ actions, entry.2.IsRestorable entry.1)
        ((value.field "actions").fields.mapM readEntry) := by
    refine fun readEntry hread ↦ .mapM fun entry _ ↦ ?_
    rw [hread]
    exact (StoryAction.isRestorable_ofJson entry.1 entry.2).bind fun a ha ↦ .ok ha
  refine hid.bind fun id hid ↦ .bind_any fun title ↦ .bind_any fun name ↦ .bind_any fun path ↦ ?_
  refine htype.bind fun type htype ↦ ?_
  refine Yields.bind (fun tags ↦ areTags_tagsOf) fun tags htags ↦ ?_
  refine (hactions _ fun _ ↦ rfl).bind fun actions hactions ↦ ?_
  refine .bind_any fun docs ↦ .bind_any fun source ↦ .ok ?_
  exact
    { id := hid
      type := htype
      tags := htags
      actions := fun entry hentry ↦ hactions entry (Fields.mem_ofList hentry) }

namespace Catalog

/-! ### What is read of a catalog -/

private theorem isNormal_readStories (stories : Fields Json) :
    Yields (fun records ↦ ∀ entry ∈ records, entry.2.IsNormal entry.1) (readStories stories) :=
  .mapM fun (key, story) _ ↦ (StoryRecord.isNormal_ofJson story key).bind fun _ hr ↦ .ok hr

private theorem yields_lift {α : Type} {P : α → Prop} {x : Except TooManyDigits α}
    (h : Yields P x) : Yields P (ReadError.lift x) := by
  intro a ha
  cases x with
  | error e => cases ha
  | ok b =>
    cases ha
    exact h a rfl

/-- A catalog is read in its normal form. -/
theorem isNormal_ofJson (now : Timestamp) (value : Json) : Yields IsNormal (ofJson now value) := by
  have hversion : Yields (fun version ↦ version ≠ [])
      (StoryAction.textOr (value.field "version") "1.0.0") :=
    fun version ↦ StoryAction.textOr_ne_nil (by decide)
  unfold ofJson
  split
  · next stories _ =>
    refine (yields_lift (isNormal_readStories stories)).bind fun records hrecords ↦ ?_
    refine (yields_lift hversion).bind fun version hversion ↦ .ok ?_
    exact ⟨hversion, fun entry hentry ↦ hrecords entry (Fields.mem_ofList hentry)⟩
  · rintro c ⟨⟩

/-! ### Where catalogs come from -/

/-- Catalogs are read from documents, or a strategy gives them in a session that can be relied
on. -/
inductive IsObtained : Catalog → Prop where
  | read {now : Timestamp} {value : Json} {c : Catalog} : ofJson now value = .ok c → IsObtained c
  | extracted {strategy : Strategy} {context : ExtractionContext} {s : Session} {c : Catalog} :
    strategy ∈ ExtractionMode.dev.strategies → s.IsSound s.files →
    ((strategy.extract context).perform s).1 = .ok (some c) → IsObtained c

theorem IsObtained.isNormal {c : Catalog} (h : c.IsObtained) : c.IsNormal := by
  cases h with
  | read hread => exact isNormal_ofJson _ _ c hread
  | extracted hmem hs hextract =>
    obtain ⟨-, hprovides⟩ := Strategy.provides_of_mem _ hmem _ hs
    exact (hprovides _ hextract c rfl).isNormal

/-- A catalog is read back as it is from what is written of it, wherever it comes from and whatever
the time is by then. -/
theorem ofJson_toJson_of_isObtained {c : Catalog} (h : c.IsObtained) (now : Timestamp) :
    ofJson now c.toJson = .ok c := ofJson_toJson h.isNormal now

/-- A document of an older form: no version, no time, another key for the title, a tag twice, and
actions and stories that say nothing. -/
def olderDocument : Json :=
  .object [("stories", .object [
    ("a--b", .object [("kind", .string "A"), ("story", .number (.int 7)),
      ("tags", .array [.string "x", .null, .string "x", .bool true]),
      ("actions", .object [("onClick", .null)])]),
    ("c", .null)])]

/-- The time at which the document is read. -/
def readingTime : Timestamp := .secondOfJanuary

/-- A session whose only file is one with a story. -/
def sessionOfStory : Session := StoryFile.sessionOfOne "export const A=1"

/-- The catalog that the strategy for source files gives of the story. -/
def catalogOfStory : Option Catalog :=
  match ((Strategy.sourceFiles.extract StoryFile.contextOfOne).perform sessionOfStory).1 with
  | .ok found => found
  | .error _ => none

/-- The older document and the story file each give a catalog, which is read back as it is. -/
theorem ofJson_toJson_of_olderDocument :
    (∃ c, ofJson readingTime olderDocument = .ok c ∧ ∀ now, ofJson now c.toJson = .ok c) ∧
      ∃ c, catalogOfStory = some c ∧ ∀ now, ofJson now c.toJson = .ok c := by
  constructor
  · have hread : (ofJson readingTime olderDocument).isOk = true := by decide +kernel
    cases hdocument : ofJson readingTime olderDocument with
    | error e => rw [hdocument] at hread; cases hread
    | ok c => exact ⟨c, rfl, ofJson_toJson_of_isObtained (.read hdocument)⟩
  · have hfound : catalogOfStory.isSome = true := by decide +kernel
    obtain ⟨c, hc⟩ := Option.isSome_iff_exists.mp hfound
    have hsound : sessionOfStory.IsSound sessionOfStory.files :=
      Session.isSound_of_unknown rfl (by rintro page ⟨⟩)
    have hextract : ((Strategy.sourceFiles.extract StoryFile.contextOfOne).perform
        sessionOfStory).1 = .ok (some c) := by
      unfold catalogOfStory at hc
      split at hc
      · next found hperform => rw [hperform, hc]
      · cases hc
    exact ⟨c, hc, ofJson_toJson_of_isObtained (.extracted List.mem_cons_self hsound hextract)⟩

end Catalog

end StoryCatalog
