import StoryCatalog.Proofs.Files
import StoryCatalog.Proofs.Literal.Plain
import StoryCatalog.Story.Discovery

/-!
# The records of story files

The catalog of story files is one of records that are made from their candidates.
-/

namespace StoryCatalog.StoryFile

variable {fs : FileSystem} {root p : Path} {now : Timestamp} {paths : List Path}

/-- The source of a file that is parsed is its text. -/
theorem readText_of_ofFile {file : StoryFile} {source : Text}
    (h : ofFile fs p = .ok (file, source)) : fs.readText p = .ok source := by
  unfold ofFile at h
  cases hread : fs.readText p with
  | error fault => rw [hread] at h; cases h
  | ok found =>
    rw [hread] at h
    dsimp only at h
    cases hfile : read (some p) found with
    | error error => rw [hfile] at h; cases h
    | ok parsed => rw [hfile] at h; cases h; rfl

/-- A file that is parsed has its numbers in their form. -/
theorem isProper_of_ofFile {file : StoryFile} {source : Text}
    (h : ofFile fs p = .ok (file, source)) : file.IsProper := by
  unfold ofFile at h
  split at h
  · cases h
  · next found _ =>
    cases hfile : read (some p) found with
    | error error => rw [hfile] at h; cases h
    | ok parsed =>
      rw [hfile] at h
      cases h
      unfold read at hfile
      split at hfile
      · cases hfile
      · split at hfile
        · cases hfile
        · next m _ =>
          split at hfile
          · cases hfile
          · next hmodule =>
            cases hfile
            exact isProper_ofModule _ m _ hmodule

/-- The records of story files are those of their candidates, with the text of the file. -/
theorem exists_toRecord_of_recordsOf {records : List StoryRecord}
    (h : recordsOf fs root paths = .ok records) {r : StoryRecord} (hr : r ∈ records) :
    ∃ (c : Candidate) (e : Expression) (importPath source : Text),
      c.IsProper ∧ e.IsProper ∧ source.IsScalar ∧
        r = c.toRecord (MetaObject.ofExpression e) importPath source := by
  induction paths generalizing records with
  | nil =>
    cases h
    cases hr
  | cons p rest ih =>
    rw [recordsOf] at h
    split at h
    · next file source hfile =>
      cases hrest : recordsOf fs root rest with
      | error error => rw [hrest] at h; cases h
      | ok more =>
        rw [hrest] at h
        cases h
        rcases List.mem_append.mp hr with hmem | hmem
        · obtain ⟨c, hc, rfl⟩ := List.mem_map.mp hmem
          obtain ⟨entry, hentry, rfl⟩ := List.mem_map.mp hc
          have hproper := isProper_of_ofFile hfile
          exact ⟨entry.2, _, _, source, hproper.stories entry hentry, hproper.metaExpression,
            FileSystem.isScalar_of_readText (readText_of_ofFile hfile), rfl⟩
        · exact ih hrest hmem
    · split at h
      · exact ih h hr
      · cases h

/-- The catalog of story files is one of their records. -/
theorem exists_records_of_catalogOf {catalog : Catalog}
    (h : catalogOf fs root now paths = .ok catalog) :
    ∃ records, recordsOf fs root paths = .ok records ∧
      catalog = Catalog.ofRecords .sourceFiles now records := by
  unfold catalogOf at h
  cases hrecords : recordsOf fs root paths with
  | error error => rw [hrecords] at h; cases h
  | ok records =>
    rw [hrecords] at h
    exact ⟨records, rfl, (Except.ok.inj h).symm⟩

end StoryCatalog.StoryFile
