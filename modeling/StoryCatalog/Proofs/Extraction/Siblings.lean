import StoryCatalog.Proofs.Files
import StoryCatalog.Proofs.Literal.Module
import StoryCatalog.Proofs.Timestamp.RoundTrip
import StoryCatalog.Story.Discovery

/-!
# Story files beside each other

A file that is no text or has a syntax error is left out of a catalog and does not spoil the others.
A file with a literal that has no value ends the catalog of them all. So the files of a catalog are
independent of each other exactly if no file has such a literal where story files are read.
-/

namespace StoryCatalog.StoryFile

open Script

variable {fs : FileSystem} {root p : Path} {now : Timestamp} {paths : List Path}

/-- The module that a file holds, if it is a text without a syntax error. -/
def moduleAt? (fs : FileSystem) (p : Path) : Option Module :=
  match fs.readText p with
  | .ok source => (Module.read (dialectOf (some p)) ((Text.toChars? source).getD [])).toOption
  | .error _ => none

/-- Every literal that is decoded in the module that a file holds has a value. -/
def HasDecodableLiterals (fs : FileSystem) (p : Path) : Prop :=
  ∀ m, moduleAt? fs p = some m → ∀ l ∈ literalsOf m, ∀ e, ¬ l.Fails e

/-- Whether a file is parsed. -/
def isParsed (fs : FileSystem) (p : Path) : Bool := (ofFile fs p).isOk

/-- A file is parsed, or its error is one for which it is left out. -/
def IsParsedOrSkipped (fs : FileSystem) (p : Path) : Prop :=
  (∃ parsed, ofFile fs p = .ok parsed) ∨
    ∃ error, ofFile fs p = .error error ∧ error.isSkipped = true

/-- The files have a catalog, and it is the one of those that are parsed. -/
def SparesSiblings (fs : FileSystem) (root : Path) (now : Timestamp) (paths : List Path) : Prop :=
  ∃ catalog, catalogOf fs root now paths = .ok catalog ∧
    catalogOf fs root now (paths.filter (isParsed fs)) = .ok catalog

/-! ### One file -/

/-- A file without a module is left out. -/
theorem ofFile_of_moduleAt?_none (h : moduleAt? fs p = none) :
    ∃ error, ofFile fs p = .error error ∧ error.isSkipped = true := by
  unfold moduleAt? at h
  unfold ofFile
  cases hread : fs.readText p with
  | error fault => exact ⟨_, rfl, rfl⟩
  | ok source =>
    rw [hread] at h
    dsimp only at h ⊢
    unfold read
    rw [EncodeFault.find?_eq_none_iff.mpr (FileSystem.isScalar_of_readText hread)]
    dsimp only
    cases hmodule : Module.read (dialectOf (some p)) ((Text.toChars? source).getD []) with
    | error line => exact ⟨_, rfl, rfl⟩
    | ok m => rw [hmodule] at h; cases h

/-- A file with a module is parsed as that module is. -/
theorem ofFile_of_moduleAt?_some {m : Module} (h : moduleAt? fs p = some m) :
    ∃ source, fs.readText p = .ok source ∧
      ofFile fs p =
        match ofModule (some p) m with
        | .ok file => .ok (file, source)
        | .error e => .error (.literal e) := by
  unfold moduleAt? at h
  unfold ofFile
  cases hread : fs.readText p with
  | error fault => rw [hread] at h; cases h
  | ok source =>
    rw [hread] at h
    dsimp only at h ⊢
    refine ⟨source, rfl, ?_⟩
    unfold read
    rw [EncodeFault.find?_eq_none_iff.mpr (FileSystem.isScalar_of_readText hread)]
    dsimp only
    cases hmodule : Module.read (dialectOf (some p)) ((Text.toChars? source).getD []) with
    | error line => rw [hmodule] at h; cases h
    | ok m' =>
      rw [hmodule] at h
      cases h
      dsimp only
      cases ofModule (some p) m <;> rfl

/-- A file is parsed or left out exactly if its literals have values. -/
theorem isParsedOrSkipped_iff : IsParsedOrSkipped fs p ↔ HasDecodableLiterals fs p := by
  unfold IsParsedOrSkipped HasDecodableLiterals
  cases hmodule : moduleAt? fs p with
  | none =>
    simp only [reduceCtorEq, false_implies, implies_true, iff_true]
    exact .inr (ofFile_of_moduleAt?_none hmodule)
  | some m =>
    obtain ⟨source, -, heq⟩ := ofFile_of_moduleAt?_some hmodule
    simp only [Option.some.injEq, forall_eq']
    rw [← (decodes_ofModule (some p) m).exists_ok_iff, heq]
    cases ofModule (some p) m with
    | ok file => simp
    | error e => simp [ReadError.isSkipped]

/-- A file holds a literal that has no value for a reason. -/
def HoldsFault (fs : FileSystem) (p : Path) (e : LiteralError) : Prop :=
  ∃ m, moduleAt? fs p = some m ∧ ∃ l ∈ literalsOf m, l.Fails e

/-- A file with a literal that has no value ends with the fault of such a literal. -/
theorem ofFile_of_not_hasDecodableLiterals (h : ¬ HasDecodableLiterals fs p) :
    ∃ e, HoldsFault fs p e ∧ ofFile fs p = .error (.literal e) := by
  cases hmodule : moduleAt? fs p with
  | none =>
    refine absurd (fun m hm ↦ ?_) h
    rw [hmodule] at hm
    cases hm
  | some m =>
    obtain ⟨source, -, heq⟩ := ofFile_of_moduleAt?_some hmodule
    cases hfile : ofModule (some p) m with
    | error e =>
      rw [hfile] at heq
      obtain ⟨l, hl, hfault⟩ :=
        List.exists_of_findSome?_eq_some ((decodes_ofModule (some p) m e).mp hfile)
      exact ⟨e, ⟨m, hmodule, l, hl, Literal.fault?_eq_some_iff.mp hfault⟩, heq⟩
    | ok file =>
      rw [hfile] at heq
      exact absurd (isParsedOrSkipped_iff.mp (.inl ⟨_, heq⟩)) h

/-! ### Several files -/

/-- The records of a file; none if it is not parsed. -/
def recordsAt (fs : FileSystem) (root p : Path) : List StoryRecord :=
  match ofFile fs p with
  | .ok (file, source) => file.records (importPath fs p root) source
  | .error _ => []

/-- The records of files that are parsed or left out are those of each file. -/
theorem recordsOf_of_forall (h : ∀ p ∈ paths, IsParsedOrSkipped fs p) :
    recordsOf fs root paths = .ok (paths.flatMap (recordsAt fs root)) := by
  induction paths with
  | nil => rfl
  | cons p rest ih =>
    obtain ⟨hp, hrest⟩ := List.forall_mem_cons.mp h
    rw [recordsOf, List.flatMap_cons, recordsAt]
    rcases hp with ⟨⟨file, source⟩, hok⟩ | ⟨error, herror, hskipped⟩
    · rw [hok]
      dsimp only
      rw [ih hrest]
      rfl
    · rw [herror]
      dsimp only
      rw [if_pos hskipped, ih hrest, List.nil_append]

/-- A file that is neither parsed nor left out ends the records of all. -/
theorem recordsOf_of_exists (root : Path) (h : ∃ p ∈ paths, ¬ HasDecodableLiterals fs p) :
    ∃ p ∈ paths, ∃ e, HoldsFault fs p e ∧ recordsOf fs root paths = .error (.literal e) := by
  induction paths with
  | nil => simp at h
  | cons p rest ih =>
    rw [recordsOf]
    by_cases hp : HasDecodableLiterals fs p
    · have hlater : ∃ p ∈ rest, ¬ HasDecodableLiterals fs p := by
        obtain ⟨q, hmem, hq⟩ := h
        rcases List.mem_cons.mp hmem with rfl | hmem
        · exact absurd hp hq
        · exact ⟨q, hmem, hq⟩
      obtain ⟨q, hq, e, hfault, he⟩ := ih hlater
      refine ⟨q, List.mem_cons_of_mem _ hq, e, hfault, ?_⟩
      rcases isParsedOrSkipped_iff.mpr hp with ⟨⟨file, source⟩, hok⟩ | ⟨error, herror, hskipped⟩
      · rw [hok]
        dsimp only
        rw [he]
        rfl
      · rw [herror]
        dsimp only
        rw [if_pos hskipped, he]
    · obtain ⟨e, hfault, he⟩ := ofFile_of_not_hasDecodableLiterals hp
      refine ⟨p, List.mem_cons_self, e, hfault, ?_⟩
      rw [he]
      rfl

/-- The files that are not parsed have no part in the records. -/
theorem flatMap_recordsAt_filter (fs : FileSystem) (root : Path) (paths : List Path) :
    (paths.filter (isParsed fs)).flatMap (recordsAt fs root) =
      paths.flatMap (recordsAt fs root) := by
  induction paths with
  | nil => rfl
  | cons p rest ih =>
    rw [List.filter_cons, List.flatMap_cons]
    split
    · rw [List.flatMap_cons, ih]
    · next hp =>
      have hnone : recordsAt fs root p = [] := by
        unfold isParsed at hp
        unfold recordsAt
        cases hfile : ofFile fs p with
        | ok parsed => rw [hfile] at hp; exact absurd rfl hp
        | error error => rfl
      rw [hnone, List.nil_append, ih]

/-- Files are parsed or left out, and their catalog is that of the parsed ones, exactly where all
literals of theirs that are decoded have values. Otherwise there is no catalog, for the reason why
one of the literals has no value. -/
theorem sparesSiblings_iff (fs : FileSystem) (root : Path) (now : Timestamp) (paths : List Path) :
    (∀ p, IsParsedOrSkipped fs p ↔ HasDecodableLiterals fs p) ∧
      (SparesSiblings fs root now paths ↔ ∀ p ∈ paths, HasDecodableLiterals fs p) ∧
      (¬ SparesSiblings fs root now paths →
        ∃ p ∈ paths, ∃ e, HoldsFault fs p e ∧
          catalogOf fs root now paths = .error (.literal e)) := by
  have hfails : (¬ ∀ p ∈ paths, HasDecodableLiterals fs p) → ∃ p ∈ paths, ∃ e,
      HoldsFault fs p e ∧ catalogOf fs root now paths = .error (.literal e) := by
    intro h
    simp only [Classical.not_forall, exists_prop] at h
    obtain ⟨p, hp, e, hfault, he⟩ := recordsOf_of_exists root h
    refine ⟨p, hp, e, hfault, ?_⟩
    rw [catalogOf, he]
    rfl
  have hiff : SparesSiblings fs root now paths ↔ ∀ p ∈ paths, HasDecodableLiterals fs p := by
    constructor
    · rintro ⟨catalog, hcatalog, -⟩
      by_contra hnot
      obtain ⟨p, -, e, -, he⟩ := hfails hnot
      rw [hcatalog] at he
      cases he
    · intro h
      have hall : ∀ p ∈ paths, IsParsedOrSkipped fs p :=
        fun p hp ↦ isParsedOrSkipped_iff.mpr (h p hp)
      have hparsed : ∀ p ∈ paths.filter (isParsed fs), IsParsedOrSkipped fs p :=
        fun p hp ↦ hall p (List.mem_filter.mp hp).1
      refine ⟨Catalog.ofRecords .sourceFiles now (paths.flatMap (recordsAt fs root)), ?_, ?_⟩
      · rw [catalogOf, recordsOf_of_forall hall]
        rfl
      · rw [catalogOf, recordsOf_of_forall hparsed, flatMap_recordsAt_filter]
        rfl
  exact ⟨fun _ ↦ isParsedOrSkipped_iff, hiff, fun hnot ↦ hfails (mt hiff.mpr hnot)⟩

/-- A directory with two story files, one of which names a code point that is not there. -/
def twoFiles : FileSystem where
  working := ⟨"/", []⟩
  nodes := [(["p"], .directory),
    (["p", "A.stories.ts"],
      .file ((Text.ofString "export const A=1").flatMap Utf8.encodeCodePoint) (.ofInt 0)),
    (["p", "Z.stories.ts"],
      .file ((Text.ofString "export const C='\\u\x7b110000\x7d'").flatMap Utf8.encodeCodePoint)
        (.ofInt 0))]

def filesOfTwo : List Path :=
  [⟨"/", ["p", "A.stories.ts"]⟩, ⟨"/", ["p", "Z.stories.ts"]⟩]

def filesTime : Timestamp := .secondOfJanuary

/-- An escape beyond the last code point in one file leaves its sibling without a catalog. -/
theorem not_sparesSiblings_escape :
    isParsed twoFiles ⟨"/", ["p", "A.stories.ts"]⟩ = true ∧
      ¬ SparesSiblings twoFiles ⟨"/", ["p"]⟩ filesTime filesOfTwo := by
  refine ⟨by decide +kernel, ?_⟩
  rintro ⟨catalog, hcatalog, -⟩
  have hnone : (catalogOf twoFiles ⟨"/", ["p"]⟩ filesTime filesOfTwo).isOk = false := by
    decide +kernel
  rw [hcatalog] at hnone
  cases hnone

end StoryCatalog.StoryFile
