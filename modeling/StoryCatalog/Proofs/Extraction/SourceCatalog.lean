import StoryCatalog.Proofs.Catalog.Records
import StoryCatalog.Proofs.Extraction.Selection
import StoryCatalog.Proofs.Story.Enumeration

/-!
# The catalog of the source files

The source files come to the catalog of all records of the files that are parsed: under each
identifier the record of the last file that has it, in the place of the first one. The order in
which the file system lists its nodes has no part in this.
-/

namespace StoryCatalog

namespace StoryFile

variable {fs : FileSystem} {root : Path} {now : Timestamp} {paths : List Path} {catalog : Catalog}

instance (fs : FileSystem) (p : Path) : Decidable (IsParsedOrSkipped fs p) :=
  match h : ofFile fs p with
  | .ok parsed => .isTrue (.inl ⟨parsed, h⟩)
  | .error error =>
    if hskipped : error.isSkipped = true then .isTrue (.inr ⟨error, h, hskipped⟩)
    else .isFalse (by simp [IsParsedOrSkipped, h, hskipped])

/-- The catalog holds the records of the files at paths, and nothing else. -/
structure IsCollectedIn (fs : FileSystem) (root : Path) (paths : List Path) (catalog : Catalog) :
    Prop where
  mem_keys : ∀ id, id ∈ catalog.stories.keys ↔ ∃ p ∈ paths, ∃ r ∈ recordsAt fs root p, r.id = id
  /-- Of the files with an identifier the last one counts, and in it the last record with it. -/
  get? : ∀ id, catalog.stories.get? id =
    paths.reverse.findSome? fun p ↦ (recordsAt fs root p).reverse.find? (·.id == id)
  /-- Identifiers stand in the order in which they first come. -/
  keys : catalog.stories.keys.Pairwise fun id id' ↦
    (paths.flatMap fun p ↦ (recordsAt fs root p).map (·.id)).idxOf id <
      (paths.flatMap fun p ↦ (recordsAt fs root p).map (·.id)).idxOf id'
  id_eq : ∀ entry ∈ catalog.stories.fields, entry.1 = entry.2.id

theorem isCollectedIn_ofRecords (fs : FileSystem) (root : Path) (now : Timestamp)
    (paths : List Path) :
    IsCollectedIn fs root paths
      (.ofRecords .sourceFiles now (paths.flatMap (recordsAt fs root))) := by
  constructor
  · intro id
    rw [Catalog.keys_ofRecords, mem_dedupeTags, List.mem_map]
    constructor
    · rintro ⟨r, hr, rfl⟩
      obtain ⟨p, hp, hmem⟩ := List.mem_flatMap.mp hr
      exact ⟨p, hp, r, hmem, rfl⟩
    · rintro ⟨p, hp, r, hr, rfl⟩
      exact ⟨r, List.mem_flatMap.mpr ⟨p, hp, hr⟩, rfl⟩
  · intro id
    rw [Catalog.get?_ofRecords, List.reverse_flatMap, List.find?_flatMap]
    rfl
  · rw [Catalog.keys_ofRecords, List.map_flatMap]
    exact pairwise_idxOf_dedupeTags _
  · intro entry hentry
    exact (Catalog.mem_stories_ofRecords hentry).1

end StoryFile

namespace Strategy

open StoryFile FileSystem

variable {c : ExtractionContext} {s : Session} {directory : Path}

/-- What the source files come to does not depend on the order of the nodes. -/
theorem sourcesResult_of_isReordering {fs : FileSystem} (h : IsReordering s.files fs)
    (hdistinct : s.files.HasDistinctNames) :
    sourcesResult c { s with files := fs } = sourcesResult c s := by
  unfold sourcesResult
  simp only [discover_of_isReordering h hdistinct, catalogOf_of_agrees (h.agrees hdistinct)]

/-- If story files are discovered and each of them is parsed or left out, the source files come to a
catalog, the session untouched. The files are those below the directory with the name of a story
file, without the installed packages, one after another in the order of their paths; the catalog
holds their records, and is the same for every order in which the nodes of the tree are listed. -/
theorem exists_catalog_of_sourceFiles (hdirectory : c.sourceDirectory = some directory)
    (htree : s.files.IsTree) (hdistinct : s.files.HasDistinctNames)
    (hfound : discover s.files directory ≠ [])
    (hparsed : ∀ p ∈ discover s.files directory, IsParsedOrSkipped s.files p) :
    ∃ catalog, (sourceFiles.extract c).perform s = (.ok (some catalog), s) ∧
      IsCollectedIn s.files c.projectRoot (discover s.files directory) catalog ∧
      (∀ p, p ∈ discover s.files directory ↔ ∃ below, p = directory.join ⟨[], below⟩ ∧
        (".." : Text) ∉ below ∧ isName (below.getLast?.getD []) = true ∧
        excludedName ∉ below ∧ s.files.isFile p = true) ∧
      (discover s.files directory).Pairwise (fun p q ↦ p.isBefore q = true) ∧
      ∀ fs, IsReordering s.files fs →
        (sourceFiles.extract c).perform { s with files := fs } =
          (.ok (some catalog), { s with files := fs }) := by
  let records := (discover s.files directory).flatMap (recordsAt s.files c.projectRoot)
  have hcatalog : catalogOf s.files c.projectRoot s.now (discover s.files directory) =
      .ok (.ofRecords .sourceFiles s.now records) := by
    rw [catalogOf, recordsOf_of_forall hparsed]
    rfl
  have hresult : sourcesResult c s = .ok (some (.ofRecords .sourceFiles s.now records)) := by
    have hnonempty : (discover s.files directory).isEmpty = false := by
      rwa [List.isEmpty_eq_false_iff]
    simp [sourcesResult, hdirectory, hnonempty, hcatalog]
  refine ⟨.ofRecords .sourceFiles s.now records, ?_, ?_, ?_, ?_, ?_⟩
  · exact (perform_extractSources c s).trans (by rw [hresult])
  · exact isCollectedIn_ofRecords s.files c.projectRoot s.now _
  · intro p
    exact mem_discover_iff htree hdistinct
  · exact pairwise_discover hdistinct directory
  · intro fs h
    apply (perform_extractSources c _).trans
    rw [sourcesResult_of_isReordering h hdistinct, hresult]

/-! ### Two files with stories of one name -/

/-- The bytes of a story file with one story. -/
def storyB : Bytes :=
  (Text.ofString "export default \x7btitle:'T'\x7d;export const B=1").flatMap Utf8.encodeCodePoint

/-- A project whose story files are listed against the order of their paths; one of them has a
syntax error, and one belongs to an installed package. -/
def twiceB : Session where
  files :=
    { working := ⟨"/", []⟩
      nodes := [(["p", "Z.stories.ts"], .file storyB (.ofInt 0)),
        (["p", "node_modules", "N.stories.ts"], .file storyB (.ofInt 0)),
        (["p", "M.stories.ts"],
          .file ((Text.ofString "export const").flatMap Utf8.encodeCodePoint) (.ofInt 0)),
        (["p", "A.stories.ts"], .file storyB (.ofInt 0)),
        (["p", "node_modules"], .directory), (["p"], .directory)] }
  now := .secondOfJanuary
  server := .ofServer fun _ _ ↦ .timedOut
  requests := []
  page := none
  calls := []
  liveIndex := .unknown
  remaining := none

/-- The context of the project. -/
def contextOfB : ExtractionContext where
  projectRoot := ⟨"/", ["p"]⟩
  sourceDirectory := some ⟨"/", ["p"]⟩
  outputDirectory := none
  serverUrl := none
  hasParser := true
  hasBrowser := false
  pageLimit := .int 30
  storyLimit := .int 5
  indexLimit := .int 10
  headless := true
  requiresSource := false

private theorem discover_twiceB :
    discover twiceB.files ⟨"/", ["p"]⟩ = [⟨"/", ["p", "A.stories.ts"]⟩,
      ⟨"/", ["p", "M.stories.ts"]⟩, ⟨"/", ["p", "Z.stories.ts"]⟩] := by
  have hlocate : twiceB.files.locate ⟨"/", ["p"]⟩ = .ok ["p"] := by rfl
  have hperm : (((twiceB.files.filesBelow ["p"]).filter isStoryPath).map fun below ↦
      (⟨"/", ["p"]⟩ : Path).join ⟨[], below⟩).Perm [⟨"/", ["p", "A.stories.ts"]⟩,
        ⟨"/", ["p", "M.stories.ts"]⟩, ⟨"/", ["p", "Z.stories.ts"]⟩] := by
    decide +kernel
  rw [discover_of_locate hlocate, Path.sorted_eq_of_perm "/" hperm (by decide +kernel)]
  exact Path.sorted_of_pairwise (by decide +kernel)

/-- The one story of the project is that of the last file. -/
theorem exists_catalog_of_twiceB :
    ∃ catalog, (sourceFiles.extract contextOfB).perform twiceB = (.ok (some catalog), twiceB) ∧
      (catalog.stories.get? "t--b").map (·.importPath) =
        some ("./Z.stories.ts" : Text) := by
  have htree : twiceB.files.IsTree := by
    intro entry hentry
    simp only [twiceB, List.mem_cons, List.not_mem_nil, or_false] at hentry
    rcases hentry with rfl | rfl | rfl | rfl | rfl | rfl
    all_goals exact ⟨by decide, rfl⟩
  have hdistinct : twiceB.files.HasDistinctNames := by
    unfold HasDistinctNames
    decide +kernel
  have hparsed : ∀ p ∈ discover twiceB.files ⟨"/", ["p"]⟩, IsParsedOrSkipped twiceB.files p := by
    rw [discover_twiceB]
    decide +kernel
  have hfound : discover twiceB.files ⟨"/", ["p"]⟩ ≠ [] := by
    rw [discover_twiceB]
    exact List.cons_ne_nil _ _
  obtain ⟨catalog, hperform, hcollected, -⟩ :=
    exists_catalog_of_sourceFiles (c := contextOfB) rfl htree hdistinct hfound hparsed
  refine ⟨catalog, hperform, ?_⟩
  rw [hcollected.get?, discover_twiceB]
  decide +kernel

end Strategy

end StoryCatalog
