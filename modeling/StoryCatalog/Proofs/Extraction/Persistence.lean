import StoryCatalog.Extraction.Run
import StoryCatalog.Proofs.Catalog.Saving
import StoryCatalog.Proofs.Catalog.Writing

/-!
# Persisting what a run keeps

A run saves its catalog before the store takes it in, so it either installs both or fails and leaves
the store alone. What the catalog of story files is made of decides whether it can be installed: one
text with a surrogate or one integer with too many digits fails the run.
-/

namespace StoryCatalog

namespace ExtractionPlan

variable {plan : ExtractionPlan} {c : ExtractionContext} {s s' : Session} {o : Outcome}
  {catalog : Catalog} {p : Path} {files : FileSystem}

/-! ### Runs that save -/

/-- A run whose catalog is saved puts it into the store. -/
theorem run_of_saved (hselected : plan.selected c s = (.ok o, s'))
    (hcatalog : o.catalog = some catalog) (houtput : plan.output = some p) {time : Binary64}
    (clock : Binary64) {trouble : Snapshot.Trouble} (store : CatalogStore)
    (hsave : Snapshot.save s'.files time trouble p catalog = (files, .ok ())) :
    plan.run c time clock trouble store s =
      (.ok o, store.replace files clock catalog (some p), { s' with files }) := by
  rw [run, hselected]
  dsimp only
  rw [hcatalog, houtput]
  dsimp only [saveAt]
  rw [hsave]

/-- A run whose catalog is not saved leaves the store as it was. -/
theorem run_of_unsaved (hselected : plan.selected c s = (.ok o, s'))
    (hcatalog : o.catalog = some catalog) (houtput : plan.output = some p) {time : Binary64}
    (clock : Binary64) {trouble : Snapshot.Trouble} (store : CatalogStore)
    {fault : Snapshot.SaveFault}
    (hsave : Snapshot.save s'.files time trouble p catalog = (files, .error fault)) :
    plan.run c time clock trouble store s =
      (.error (.save fault), store, { s' with files }) := by
  rw [run, hselected]
  dsimp only
  rw [hcatalog, houtput]
  dsimp only [saveAt]
  rw [hsave]

/-- The disk or a path is what a run fails on. -/
def HasDiskFault : Except RunFault Outcome → Prop
  | .error (.save (.file _)) => True
  | .error (.save .disk) => True
  | _ => False

/-- A run comes to a catalog, holds it in the store as that of a path, and its bytes stand there. -/
structure Installs (p : Path) (catalog : Catalog)
    (result : Except RunFault Outcome × CatalogStore × Session) : Prop where
  outcome : ∃ o, result.1 = .ok o ∧ o.catalog = some catalog
  current : result.2.1.get? = some catalog
  source : result.2.1.source? = some p
  file : ∃ content, Snapshot.bytes catalog = .ok content ∧ result.2.2.files.read p = .ok content

/-- A run fails on what is written, and has changed neither the store nor a file. -/
structure FailsToWrite (store : CatalogStore) (fs : FileSystem)
    (result : Except RunFault Outcome × CatalogStore × Session) : Prop where
  outcome : result.1 = .error (.save .number) ∨ ∃ e, result.1 = .error (.save (.encoding e))
  store_eq : result.2.1 = store
  grows : FileSystem.Grows fs result.2.2.files

/-- Unless the disk or a path is at fault, a run installs its catalog if that has bytes, and fails
on writing it if not. -/
theorem installs_or_failsToWrite (hselected : plan.selected c s = (.ok o, s'))
    (hcatalog : o.catalog = some catalog) (houtput : plan.output = some p)
    (time clock : Binary64) (trouble : Snapshot.Trouble) (store : CatalogStore)
    (hdisk : ¬ HasDiskFault (plan.run c time clock trouble store s).1) :
    (∃ content, Snapshot.bytes catalog = .ok content) ∧
        Installs p catalog (plan.run c time clock trouble store s) ∨
      (¬ ∃ content, Snapshot.bytes catalog = .ok content) ∧
        FailsToWrite store s'.files (plan.run c time clock trouble store s) := by
  rcases hsave : Snapshot.save s'.files time trouble p catalog with ⟨files, fault | _⟩
  · have hrun := run_of_unsaved hselected hcatalog houtput clock store hsave
    obtain ⟨hcause, hgrows⟩ := Snapshot.save_error hsave
    rw [hrun] at hdisk ⊢
    rcases hcause with ⟨e, rfl⟩ | ⟨rfl, -⟩ | hbytes
    · exact absurd trivial hdisk
    · exact absurd trivial hdisk
    · refine .inr ⟨?_, ?_, rfl, hgrows⟩
      · rintro ⟨content, hcontent⟩
        rw [hcontent] at hbytes
        cases hbytes
      · rcases Snapshot.fault_of_bytes hbytes with rfl | ⟨e, rfl⟩
        · exact .inl rfl
        · exact .inr ⟨e, rfl⟩
  · rw [run_of_saved hselected hcatalog houtput clock store hsave]
    obtain ⟨names, content, hbytes, hlocate, hnode, -⟩ := Snapshot.save_ok hsave
    refine .inl ⟨⟨content, hbytes⟩, ⟨o, rfl, hcatalog⟩, rfl, rfl, content, hbytes, ?_⟩
    exact FileSystem.read_of_node? hlocate hnode

end ExtractionPlan

namespace Catalog

open ExtractionPlan

variable {catalog : Catalog}

/-! ### Catalogs that can be persisted -/

/-- A catalog can be persisted: it has a document, the document has bytes, and every run that keeps
the catalog installs it, unless the disk or a path is at fault. -/
def IsPersistable (catalog : Catalog) : Prop :=
  (∃ document content, catalog.document (.indented Snapshot.indent) = .ok document ∧
    Utf8.encode document = .ok content) ∧
  ∀ (plan : ExtractionPlan) (c : ExtractionContext) (s s' : Session) (o : Outcome) (p : Path)
    (time clock : Binary64) (trouble : Snapshot.Trouble) (store : CatalogStore),
    plan.selected c s = (.ok o, s') → o.catalog = some catalog → plan.output = some p →
    ¬ HasDiskFault (plan.run c time clock trouble store s).1 →
    Installs p catalog (plan.run c time clock trouble store s)

/-- A catalog can be persisted as soon as it has bytes. -/
theorem isPersistable_iff_bytes :
    IsPersistable catalog ↔ ∃ content, Snapshot.bytes catalog = .ok content := by
  have hdocument := @Json.encode_print_ok_iff (.indented Snapshot.indent) trivial catalog.toJson
  constructor
  · rintro ⟨hwritten, -⟩
    exact Snapshot.bytes_ok_iff.mpr (hdocument.mp hwritten)
  · intro hcontent
    refine ⟨hdocument.mpr (Snapshot.bytes_ok_iff.mp hcontent), ?_⟩
    intro plan c s s' o p time clock trouble store hselected hcatalog houtput hdisk
    rcases installs_or_failsToWrite hselected hcatalog houtput time clock trouble store hdisk with
      ⟨-, hinstalls⟩ | ⟨hnone, -⟩
    · exact hinstalls
    · exact absurd hcontent hnone

end Catalog

namespace StoryFile

open ExtractionPlan Catalog

variable {fs : FileSystem} {root : Path} {now : Timestamp} {paths : List Path} {catalog : Catalog}

/-- The catalog of story files can be persisted exactly if what the files decide on in its records
can be written and their count can. Otherwise every run that would save it fails on writing it. -/
theorem isPersistable_iff (h : catalogOf fs root now paths = .ok catalog) :
    (IsPersistable catalog ↔
      Number.fitsLimit catalog.size = true ∧ ∀ r ∈ catalog.records, r.IsWritable) ∧
    (¬ IsPersistable catalog →
      ∀ (plan : ExtractionPlan) (c : ExtractionContext) (s s' : Session) (o : Outcome) (p : Path)
        (time clock : Binary64) (trouble : Snapshot.Trouble) (store : CatalogStore),
        plan.selected c s = (.ok o, s') → o.catalog = some catalog → plan.output = some p →
        ¬ HasDiskFault (plan.run c time clock trouble store s).1 →
        FailsToWrite store s'.files (plan.run c time clock trouble store s)) := by
  constructor
  · rw [isPersistable_iff_bytes, Snapshot.bytes_ok_iff]
    exact isWritable_toJson_catalogOf h
  · intro hnot plan c s s' o p time clock trouble store hselected hcatalog houtput hdisk
    rcases installs_or_failsToWrite hselected hcatalog houtput time clock trouble store hdisk with
      ⟨hcontent, -⟩ | ⟨-, hfails⟩
    · exact absurd (isPersistable_iff_bytes.mpr hcontent) hnot
    · exact hfails

/-! ### A file with an escaped pair of surrogates -/

/-- A directory with one story file. -/
def oneFile (source : String) : FileSystem where
  working := ⟨"/", []⟩
  nodes := [(["p"], .directory),
    (["p", "A.stories.ts"],
      .file ((Text.ofString source).flatMap Utf8.encodeCodePoint) (.ofInt 0))]

/-- A story file with the two halves of a character as escapes of their own. -/
def escapedPair : String := "export const A=\x7bargs:\x7ba:'\\ud83d\\ude00'\x7d\x7d"

/-- The catalog of the one story file. -/
def catalogOfOne (source : String) : Except ReadError Catalog :=
  catalogOf (oneFile source) ⟨"/", ["p"]⟩ .secondOfJanuary [⟨"/", ["p", "A.stories.ts"]⟩]

/-- Whether the catalog of the one story file is there, and whether it has bytes. -/
private def bytesOfOne (source : String) : Option Bool :=
  match catalogOfOne source with
  | .ok catalog => some (Snapshot.bytes catalog).isOk
  | .error _ => none

private theorem exists_of_bytesOfOne {source : String} {written : Bool}
    (h : bytesOfOne source = some written) :
    ∃ catalog, catalogOfOne source = .ok catalog ∧ (Snapshot.bytes catalog).isOk = written := by
  unfold bytesOfOne at h
  split at h
  · next catalog hcatalog => exact ⟨catalog, hcatalog, Option.some.inj h⟩
  · cases h

/-- A story file with escapes of all kinds, none of them a surrogate, and with numbers. -/
def escapedArgs : String :=
  "export const A=\x7bargs:\x7ba:'\\xe9\\u0041\\u\x7b1f600\x7d\\n',n:0x1F,'k-1':[1.5]\x7d\x7d"

/-- Its story has the decoded values for arguments, and its catalog can be persisted. -/
theorem isPersistable_of_escapedArgs :
    ∃ catalog, catalogOfOne escapedArgs = .ok catalog ∧
      catalog.records.map (fun r ↦ (Json.object r.args).display.toOption) =
        [some ("\x7b'a': 'éA😀\\n', 'n': 31, 'k-1': [1.5]\x7d" : Text)] ∧
      IsPersistable catalog := by
  have hargs : (catalogOfOne escapedArgs).toOption.map
      (·.records.map fun r ↦ (Json.object r.args).display.toOption) =
      some [some ("\x7b'a': 'éA😀\\n', 'n': 31, 'k-1': [1.5]\x7d" : Text)] := by decide +kernel
  have hbytes : bytesOfOne escapedArgs = some true := by decide +kernel
  obtain ⟨catalog, hcatalog, hok⟩ := exists_of_bytesOfOne hbytes
  rw [hcatalog] at hargs
  refine ⟨catalog, hcatalog, Option.some.inj hargs, (isPersistable_iff hcatalog).1.mpr ?_⟩
  rw [← isWritable_toJson_catalogOf hcatalog, ← Snapshot.bytes_ok_iff]
  cases hresult : Snapshot.bytes catalog with
  | ok content => exact ⟨content, rfl⟩
  | error fault => rw [hresult] at hok; cases hok

/-- A session whose only file is the story file. -/
def sessionOfOne (source : String) : Session where
  files := oneFile source
  now := .secondOfJanuary
  server := .ofServer fun _ _ ↦ .timedOut
  requests := []
  page := none
  calls := []
  liveIndex := .unknown
  remaining := none

/-- The context of the directory. -/
def contextOfOne : ExtractionContext where
  projectRoot := ⟨"/", ["p"]⟩
  sourceDirectory := some ⟨"/", ["p"]⟩
  outputDirectory := none
  serverUrl := none
  hasParser := true
  hasBrowser := false
  pageLimit := .int 30
  storyLimit := .int 5
  indexLimit := .int 10
  headless := true
  requiresSource := false

/-- Whether a run over the story file that saves its catalog fails on a surrogate. -/
def failsOnSurrogate (source : String) : Bool :=
  match ((⟨.dev, false, some ⟨"/", ["p", "out.json"]⟩, none⟩ : ExtractionPlan).run contextOfOne
    (.ofInt 0) (.ofInt 0) .none .empty (sessionOfOne source)).1 with
  | .error (.save (.encoding _)) => true
  | _ => false

/-- The file is accepted, and its catalog cannot be persisted: the two escapes stay surrogates, and
a run fails on them. -/
theorem not_isPersistable_surrogates :
    (∃ catalog, catalogOfOne escapedPair = .ok catalog ∧ ¬ IsPersistable catalog) ∧
      failsOnSurrogate escapedPair = true := by
  refine ⟨?_, by decide +kernel⟩
  have hbytes : bytesOfOne escapedPair = some false := by decide +kernel
  obtain ⟨catalog, hcatalog, hok⟩ := exists_of_bytesOfOne hbytes
  refine ⟨catalog, hcatalog, ?_⟩
  intro hpersistable
  obtain ⟨content, hcontent⟩ := isPersistable_iff_bytes.mp hpersistable
  rw [hcontent] at hok
  cases hok

end StoryFile

end StoryCatalog
