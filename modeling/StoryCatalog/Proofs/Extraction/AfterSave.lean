import StoryCatalog.Proofs.Catalog.Restoring
import StoryCatalog.Proofs.Catalog.Saving
import StoryCatalog.Proofs.Extraction.Selection
import StoryCatalog.Proofs.Session.Moving

/-!
# Files after a save

What strategies find in a tree after a catalog has been saved in it. The story files are the same,
and a directory that is new holds none. A built Storybook keeps its index unless the snapshot has
taken the place of that very file: a snapshot is no index (`Snapshot.IsAfter.find?_eq`).
-/

namespace StoryCatalog

open FileSystem

namespace Snapshot

variable {fs fs' : FileSystem} {p q : Path} {c : Catalog} {time : Binary64} {trouble : Trouble}

/-- The second tree is the first one after a snapshot was saved at a path. The path is not one of a
story file, and what stands there is no story index. -/
structure IsAfter (p : Path) (fs fs' : FileSystem) : Prop where
  keeps : Keeps fs fs'
  elsewhere : ∀ names, names ≠ fs.namesOf p → AgreesAt fs fs' names
  below : ∀ directory, (fs'.filesBelow directory).filter StoryFile.isStoryPath =
    (fs.filesBelow directory).filter StoryFile.isStoryPath
  noStory : ∀ n, StoryFile.isStoryPath ((fs.namesOf p).drop n) = false
  noIndex : ∀ q index, fs.namesOf q = fs.namesOf p → StoryIndex.read fs' q ≠ .ok index

/-- The name of a snapshot, unless another one is set. -/
def defaultName : Text := "stories.json"

theorem ne_nil_of_name (hname : p.name = defaultName) : p.names ≠ [] := by
  intro hnil
  rw [Path.name, hnil] at hname
  exact absurd hname (by decide)

theorem getLast?_namesOf (hname : p.name = defaultName) :
    (fs.namesOf p).getLast? = some defaultName := by
  have hlast : p.names.getLast? = some defaultName := by
    rw [Path.name] at hname
    cases hp : p.names.getLast? with
    | none =>
      rw [hp] at hname
      exact absurd hname (by decide)
    | some last =>
      rw [hp] at hname
      exact congrArg some hname
  rw [namesOf, Path.join]
  split
  · exact hlast
  · dsimp only
    rw [List.getLast?_append, hlast]
    rfl

theorem namesOf_join (fs : FileSystem) (directory : Path) (below : List Text) :
    fs.namesOf (directory.join ⟨[], below⟩) = fs.namesOf directory ++ below := by
  change (fs.working.join ⟨directory.root, directory.names ++ below⟩).names = _
  rw [namesOf, Path.join, Path.join]
  change (if directory.isAbsolute = true then _ else _ : Path).names = _
  split
  · rfl
  · exact (List.append_assoc _ _ _).symm

theorem namesOf_child (fs : FileSystem) (directory : Path) (name : Text)
    (hname : Path.ofText name = ⟨[], [name]⟩) :
    fs.namesOf (directory.child name) = fs.namesOf directory ++ [name] := by
  rw [Path.child, hname, namesOf_join]

/-- A snapshot in a directory has the default name there. -/
theorem name_child (directory : Path) : (directory.child defaultName).name = defaultName := by
  have hparts : Path.ofText defaultName = ⟨[], [defaultName]⟩ := by decide
  rw [Path.child, hparts, Path.name]
  change (directory.names ++ [defaultName]).getLast?.getD [] = defaultName
  rw [List.getLast?_concat]
  rfl

/-- The files that may hold an index have plain paths if their directory has. -/
theorem isPlain_child {directory : Path} (hplain : fs.IsPlain directory) {name : Text}
    (hname : name ∈ StoryIndex.fileNames) : fs.IsPlain (directory.child name) := by
  have hparts : ∀ name ∈ StoryIndex.fileNames,
      Path.ofText name = ⟨[], [name]⟩ ∧ (".." : Text) ≠ name := by decide
  obtain ⟨hpath, hdots⟩ := hparts name hname
  intro hmem
  rw [namesOf_child fs directory name hpath, List.mem_append, List.mem_singleton] at hmem
  exact hmem.elim hplain hdots

/-- No names that end in the name of a snapshot are those of a story file. -/
theorem isStoryPath_drop (hname : p.name = defaultName) (n : Nat) :
    StoryFile.isStoryPath ((fs.namesOf p).drop n) = false := by
  have hlast : ((fs.namesOf p).drop n).getLast? = none ∨
      ((fs.namesOf p).drop n).getLast? = some defaultName := by
    rw [List.getLast?_drop, getLast?_namesOf hname]
    split
    · exact .inl rfl
    · exact .inr rfl
  have hno : StoryFile.isName (((fs.namesOf p).drop n).getLast?.getD []) = false := by
    rcases hlast with hlast | hlast <;> rw [hlast] <;> decide
  rw [StoryFile.isStoryPath, hno, Bool.false_and]

/-- A catalog is no story index. -/
theorem ofJson_toJson_catalog (c : Catalog) : StoryIndex.ofJson c.toJson = .error .catalog := rfl

/-- After a save under the default name the tree is the one after a snapshot was saved. -/
theorem isAfter_of_save (hplain : fs.IsPlain p) (hname : p.name = defaultName)
    (hc : c.IsRestorable) (h : save fs time trouble p c = (fs', .ok ())) : IsAfter p fs fs' := by
  obtain ⟨names, content, hbytes, hlocate, hnode, hothers⟩ := save_ok h
  have hkeeps := keeps_save h
  have hnamesOf : ∀ q, fs'.namesOf q = fs.namesOf q := by
    intro q
    rw [namesOf, namesOf, hkeeps.1]
  have hplain' : fs'.IsPlain p := by rwa [FileSystem.IsPlain, hnamesOf]
  have hnames := eq_namesOf_of_locate hplain' hlocate
  rw [hnamesOf] at hnames
  subst hnames
  refine ⟨hkeeps, hothers, filesBelow_save h ?_, isStoryPath_drop hname, ?_⟩
  · intro found n hfound
    rw [hlocate] at hfound
    cases hfound
    exact isStoryPath_drop hname n
  · intro q index hq
    have hlocate' : fs'.locate q = .ok (fs.namesOf p) := by
      change fs'.walk [] (fs'.namesOf q) = _
      rw [hnamesOf, hq, ← hnamesOf]
      rw [← hnamesOf] at hlocate
      exact hlocate
    rw [StoryIndex.read, readJson_of_bytes hc hbytes hlocate' hnode]
    dsimp only
    rw [ofJson_toJson_catalog]
    simp

namespace IsAfter

/-! ### Files elsewhere -/

theorem namesOf_eq (h : IsAfter p fs fs') (q : Path) : fs'.namesOf q = fs.namesOf q := by
  rw [namesOf, namesOf, h.keeps.1]

/-- A plain path elsewhere leads to the same file, or to none before and after. -/
theorem find_file_iff (h : IsAfter p fs fs') (htree : fs.IsTree) (hplain : fs.IsPlain q)
    (hq : fs.namesOf q ≠ fs.namesOf p) {content : Bytes} {modified : Binary64} :
    fs'.find q = .ok (.file content modified) ↔ fs.find q = .ok (.file content modified) := by
  have hplain' : fs'.IsPlain q := by rwa [FileSystem.IsPlain, h.namesOf_eq]
  constructor
  · intro hfind
    have hnode := node?_of_find hplain' hfind
    rw [h.namesOf_eq] at hnode
    rcases h.elsewhere _ hq with heq | ⟨-, hnew⟩
    · rw [heq] at hnode
      exact htree.find_of_node? hplain hnode
    · rw [hnew] at hnode
      cases hnode
  · intro hfind
    have hnode := node?_of_find hplain hfind
    rcases h.elsewhere _ hq with heq | ⟨hnone, -⟩
    · rw [← heq] at hnode
      have hlocate := locate_of_keeps h.keeps (htree.locate hplain (by rwa [heq] at hnode))
      simp only [find, hlocate, hnode, bind, Except.bind]
      rfl
    · rw [hnone] at hnode
      cases hnode

theorem isFile_eq (h : IsAfter p fs fs') (htree : fs.IsTree) (hplain : fs.IsPlain q)
    (hq : fs.namesOf q ≠ fs.namesOf p) : fs'.isFile q = fs.isFile q := by
  rw [Bool.eq_iff_iff, isFile_iff, isFile_iff]
  exact exists_congr fun content ↦ exists_congr fun modified ↦ h.find_file_iff htree hplain hq

/-- What can be read elsewhere is the same before and after. -/
theorem read_eq_or (h : IsAfter p fs fs') (htree : fs.IsTree) (hplain : fs.IsPlain q)
    (hq : fs.namesOf q ≠ fs.namesOf p) :
    fs'.read q = fs.read q ∨
      (∃ fault, fs.read q = .error fault) ∧ ∃ fault, fs'.read q = .error fault := by
  cases hread : fs.read q with
  | ok content =>
    obtain ⟨modified, hfind⟩ := find_of_read hread
    exact .inl (read_of_find ((h.find_file_iff htree hplain hq).mpr hfind))
  | error fault =>
    refine .inr ⟨⟨fault, rfl⟩, ?_⟩
    cases hread' : fs'.read q with
    | error fault' => exact ⟨fault', rfl⟩
    | ok content =>
      obtain ⟨modified, hfind⟩ := find_of_read hread'
      rw [read_of_find ((h.find_file_iff htree hplain hq).mp hfind)] at hread
      cases hread

/-! ### The index of a built Storybook -/

private def holdsIndex (fs : FileSystem) (q : Path) : Bool :=
  fs.isFile q &&
    match StoryIndex.read fs q with
    | .ok _ => true
    | .error _ => false

theorem read_eq_of_read_eq (h : fs'.read q = fs.read q) :
    StoryIndex.read fs' q = StoryIndex.read fs q := by
  rw [StoryIndex.read, StoryIndex.read, readJson, readJson, readText, readText, h]

/-- A file elsewhere has the same content. -/
theorem read_eq (h : IsAfter p fs fs') (htree : fs.IsTree) (hplain : fs.IsPlain q)
    (hq : fs.namesOf q ≠ fs.namesOf p) (hfile : fs.isFile q = true) : fs'.read q = fs.read q := by
  obtain ⟨content, modified, hfind⟩ := isFile_iff.mp hfile
  exact (read_of_find ((h.find_file_iff htree hplain hq).mpr hfind)).trans
    (read_of_find hfind).symm

private theorem holdsIndex_eq (h : IsAfter p fs fs') (htree : fs.IsTree) (hplain : fs.IsPlain q)
    (hq : fs.namesOf q ≠ fs.namesOf p) : holdsIndex fs' q = holdsIndex fs q := by
  rw [holdsIndex, holdsIndex, h.isFile_eq htree hplain hq]
  by_cases hfile : fs.isFile q = true
  · rw [read_eq_of_read_eq (h.read_eq htree hplain hq hfile)]
  · rw [Bool.eq_false_iff.mpr hfile, Bool.false_and, Bool.false_and]

private theorem holdsIndex_eq_false (h : IsAfter p fs fs') (hq : fs.namesOf q = fs.namesOf p) :
    holdsIndex fs' q = false := by
  rw [holdsIndex]
  cases hread : StoryIndex.read fs' q with
  | ok index => exact absurd hread (h.noIndex q index hq)
  | error error => rw [Bool.and_false]

private theorem find?_eq_if (fs : FileSystem) (directory : Path) :
    StoryIndex.find? fs directory =
      if holdsIndex fs (directory.child "index.json") then some (directory.child "index.json")
      else if holdsIndex fs (directory.child "stories.json") then
        some (directory.child "stories.json")
      else none := by
  change List.find? (holdsIndex fs)
    [directory.child "index.json", directory.child "stories.json"] = _
  cases hfirst : holdsIndex fs (directory.child "index.json") <;>
    cases hsecond : holdsIndex fs (directory.child "stories.json") <;>
      simp [List.find?, hfirst, hsecond]

/-- An index of a built Storybook is found where it was, unless it stood where the snapshot is. -/
theorem find?_eq (h : IsAfter p fs fs') (htree : fs.IsTree) (hname : p.name = defaultName)
    {directory : Path} (hplain : fs.IsPlain directory) :
    StoryIndex.find? fs' directory =
      (StoryIndex.find? fs directory).filter fun q ↦ fs.namesOf q ≠ fs.namesOf p := by
  have hfirst : fs.namesOf (directory.child "index.json") ≠ fs.namesOf p := by
    intro heq
    have hlast := congrArg List.getLast? heq
    rw [namesOf_child fs directory _ (by decide), getLast?_namesOf hname,
      List.getLast?_concat] at hlast
    exact absurd hlast (by decide)
  rw [find?_eq_if, find?_eq_if, h.holdsIndex_eq htree (isPlain_child hplain (by decide)) hfirst]
  by_cases hsecond : fs.namesOf (directory.child "stories.json") = fs.namesOf p
  · rw [h.holdsIndex_eq_false hsecond]
    cases holdsIndex fs (directory.child "index.json") <;>
      cases holdsIndex fs (directory.child "stories.json") <;>
        simp [Option.filter_some, hfirst, hsecond]
  · rw [h.holdsIndex_eq htree (isPlain_child hplain (by decide)) hsecond]
    cases holdsIndex fs (directory.child "index.json") <;>
      cases holdsIndex fs (directory.child "stories.json") <;>
        simp [Option.filter_some, hfirst, hsecond]

/-- What a built Storybook comes to after a save is the same but for the time, and nothing if its
index stood where the snapshot is. -/
theorem builtResult_eq (h : IsAfter p fs fs') (htree : fs.IsTree) (hname : p.name = defaultName)
    {c : ExtractionContext} (hplain : ∀ o, c.outputDirectory = some o → fs.IsPlain o)
    {s : Session} (hs : s.files = fs) (now : Timestamp) :
    Strategy.builtResult c (s.moved fs' now) =
      if ∃ q, c.outputDirectory.bind (StoryIndex.find? fs) = some q ∧
        fs.namesOf q = fs.namesOf p then none
      else (Strategy.builtResult c s).map (Catalog.redated now) := by
  subst hs
  unfold Strategy.builtResult
  cases hdirectory : c.outputDirectory with
  | none => simp
  | some o =>
    have ho := hplain o hdirectory
    change Option.map _ (StoryIndex.find? fs' o) = _
    rw [h.find?_eq htree hname ho, Option.bind_some]
    cases hfind : StoryIndex.find? s.files o with
    | none => simp
    | some q =>
      by_cases hq : s.files.namesOf q = s.files.namesOf p
      · rw [if_pos ⟨q, rfl, hq⟩]
        simp [Option.filter_some, hq]
      · have hfile : s.files.isFile q = true := by
          have hholds : holdsIndex s.files q = true := List.find?_some hfind
          rw [holdsIndex, Bool.and_eq_true] at hholds
          exact hholds.1
        obtain ⟨name, hmem, rfl⟩ := List.mem_map.mp (List.mem_of_find?_eq_some hfind)
        have hread := read_eq_of_read_eq (h.read_eq htree (isPlain_child ho hmem) hq hfile)
        rw [if_neg (by rintro ⟨found, ⟨⟩, hfound⟩; exact hq hfound)]
        simp only [Option.filter_some, ne_eq, hq, not_false_eq_true, decide_true, if_true,
          Option.map_some, Session.moved, hread]
        split
        · exact congrArg some (Strategy.redated_ofRecords _ s.now now _)
        · rfl

/-! ### Story files -/

/-- The story files below a directory that was there are the same. -/
theorem discover_eq (h : IsAfter p fs fs') {directory : Path}
    (hthere : fs.isDirectory directory = true) :
    StoryFile.discover fs' directory = StoryFile.discover fs directory := by
  obtain ⟨names, hlocate⟩ := locate_of_isDirectory hthere
  rw [StoryFile.discover, StoryFile.discover, hlocate, locate_of_keeps h.keeps hlocate]
  dsimp only
  rw [h.below]

/-- Names below a directory of a tree stand in it. -/
theorem exists_of_mem_filesBelow {names below : List Text} (hbelow : below ∈ fs.filesBelow names) :
    ∃ entry ∈ fs.nodes, entry.1 = names ++ below := by
  rw [filesBelow, List.mem_filterMap] at hbelow
  obtain ⟨⟨key, node⟩, hentry, hfound⟩ := hbelow
  dsimp only at hfound
  split at hfound
  · split at hfound
    · next hprefix =>
      cases hfound
      obtain ⟨rest, hrest⟩ := List.isPrefixOf_iff_prefix.mp hprefix
      refine ⟨_, hentry, ?_⟩
      dsimp only
      rw [← hrest, List.drop_left]
    · cases hfound
  · cases hfound

/-- A directory that was made for the snapshot holds no story files. -/
theorem discover_new (h : IsAfter p fs fs') (htree : fs.IsTree) {directory : Path}
    (hplain : fs.IsPlain directory) (hmissing : fs.isDirectory directory = false) :
    StoryFile.discover fs' directory = [] := by
  have hplain' : fs'.IsPlain directory := by rwa [FileSystem.IsPlain, h.namesOf_eq]
  rw [StoryFile.discover]
  split
  · rfl
  · next names hlocate =>
    have hnone : (fs.filesBelow names).filter StoryFile.isStoryPath = [] := by
      rw [List.filter_eq_nil_iff]
      intro below hbelow hstory
      obtain ⟨entry, hentry, hkey⟩ := exists_of_mem_filesBelow hbelow
      have hne : below ≠ [] := by
        rintro rfl
        exact absurd hstory (by decide)
      have hparent := (htree entry hentry).2
      rw [hkey, List.dropLast_append_of_ne_nil hne] at hparent
      have hnames := eq_namesOf_of_locate hplain' hlocate
      rw [h.namesOf_eq] at hnames
      have hdirectory := htree.node?_prefix hparent
      rw [hnames] at hdirectory
      rw [isDirectory, htree.find_of_node? hplain hdirectory] at hmissing
      cases hmissing
    dsimp only
    rw [h.below, hnone, List.map_nil, List.mergeSort_nil]

/-- The story files of a tree have plain paths, none of them that of the snapshot. -/
theorem isPlain_of_mem_discover (h : IsAfter p fs fs') (htree : fs.IsTree) {directory : Path}
    (hplain : fs.IsPlain directory) (hq : q ∈ StoryFile.discover fs directory) :
    fs.IsPlain q ∧ fs.namesOf q ≠ fs.namesOf p := by
  rw [StoryFile.discover] at hq
  split at hq
  · cases hq
  · next names hlocate =>
    obtain ⟨below, hbelow, rfl⟩ := List.mem_map.mp (List.mem_mergeSort.mp hq)
    obtain ⟨hbelow, hstory⟩ := List.mem_filter.mp hbelow
    rw [eq_namesOf_of_locate hplain hlocate] at hbelow
    obtain ⟨entry, hentry, hkey⟩ := exists_of_mem_filesBelow hbelow
    rw [FileSystem.IsPlain, namesOf_join, ← hkey]
    refine ⟨(htree entry hentry).1, ?_⟩
    intro hsame
    have hdrop := h.noStory (fs.namesOf directory).length
    rw [← hsame, hkey, List.drop_left, hstory] at hdrop
    cases hdrop

/-- Story files elsewhere give the same records. -/
theorem recordsOf_eq (h : IsAfter p fs fs') (htree : fs.IsTree) (root : Path) {paths : List Path}
    (hpaths : ∀ q ∈ paths, fs.IsPlain q ∧ fs.namesOf q ≠ fs.namesOf p) :
    StoryFile.recordsOf fs' root paths = StoryFile.recordsOf fs root paths := by
  induction paths with
  | nil => rfl
  | cons q rest ih =>
    obtain ⟨⟨hplain, hq⟩, hrest⟩ := List.forall_mem_cons.mp hpaths
    have himport : StoryFile.importPath fs' q root = StoryFile.importPath fs q root := by
      rw [StoryFile.importPath, StoryFile.importPath, h.keeps.1]
    rw [StoryFile.recordsOf, StoryFile.recordsOf, himport, ih hrest]
    rcases h.read_eq_or htree hplain hq with hread | ⟨⟨fault, hread⟩, fault', hread'⟩
    · have hfile : StoryFile.ofFile fs' q = StoryFile.ofFile fs q := by
        rw [StoryFile.ofFile, StoryFile.ofFile, readText, readText, hread]
      rw [hfile]
    · have hfile : ∀ {tree : FileSystem} {fault : FileFault}, tree.read q = .error fault →
          ∃ m, StoryFile.ofFile tree q = .error (.unreadable m) := by
        intro tree fault hfault
        rw [StoryFile.ofFile, readText, hfault]
        exact ⟨_, rfl⟩
      obtain ⟨m, hm⟩ := hfile hread
      obtain ⟨m', hm'⟩ := hfile hread'
      rw [hm, hm']
      rfl

end IsAfter

end Snapshot

end StoryCatalog
