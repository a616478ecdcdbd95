import StoryCatalog.Proofs.Extraction.Siblings
import StoryCatalog.Proofs.Order

/-!
# Directories in any order

A file system may list its nodes in any order. As long as their names are distinct, every path
leads to the same node in each of the orders (`IsReordering.agrees`), and the same story files are
discovered, in the order of their paths (`StoryFile.discover_of_isReordering`). What is discovered
below a directory is told by the names alone (`StoryFile.mem_discover_iff`).
-/

namespace StoryCatalog

namespace FileSystem

variable {fs fs' : FileSystem} {names : List Text} {node : Node} {p : Path}

/-- No two nodes stand under the same names. -/
def HasDistinctNames (fs : FileSystem) : Prop := (fs.nodes.map (·.1)).Nodup

/-- The second tree has the nodes of the first one, listed in some order. -/
structure IsReordering (fs fs' : FileSystem) : Prop where
  working : fs'.working = fs.working
  nodes : fs'.nodes.Perm fs.nodes

/-- In both trees the same stands under the same names. -/
structure Agrees (fs fs' : FileSystem) : Prop where
  working : fs'.working = fs.working
  node? : ∀ names, fs'.node? names = fs.node? names

/-! ### Nodes -/

theorem lookup_eq_some_iff {nodes : List (List Text × Node)} (h : (nodes.map (·.1)).Nodup) :
    lookup nodes names = some node ↔ (names, node) ∈ nodes := by
  apply Iff.intro mem_of_lookup
  induction nodes with
  | nil => simp
  | cons entry rest ih =>
    obtain ⟨key, found⟩ := entry
    obtain ⟨hkey, hrest⟩ := List.nodup_cons.mp h
    intro hmem
    rw [lookup]
    rcases List.mem_cons.mp hmem with heq | hmem
    · cases heq
      rw [if_pos rfl]
    · have hne : key ≠ names := by
        rintro rfl
        exact hkey (List.mem_map.mpr ⟨_, hmem, rfl⟩)
      rw [if_neg hne]
      exact ih hrest hmem

/-- What a tree holds under names is told by its nodes in any order. -/
theorem IsReordering.agrees (h : IsReordering fs fs') (hdistinct : fs.HasDistinctNames) :
    Agrees fs fs' := by
  refine ⟨h.working, ?_⟩
  intro names
  have hdistinct' : (fs'.nodes.map (·.1)).Nodup := (h.nodes.map _).nodup_iff.mpr hdistinct
  have hlookup : lookup fs'.nodes names = lookup fs.nodes names := by
    apply Option.ext
    intro node
    rw [lookup_eq_some_iff hdistinct', lookup_eq_some_iff hdistinct, h.nodes.mem_iff]
  rw [FileSystem.node?, FileSystem.node?, hlookup]

namespace Agrees

variable (h : Agrees fs fs')

include h

theorem walk (directory rest : List Text) : fs'.walk directory rest = fs.walk directory rest := by
  induction rest generalizing directory with
  | nil => rfl
  | cons name rest ih => rw [FileSystem.walk, FileSystem.walk, h.node?, ih, ih]

theorem locate (p : Path) : fs'.locate p = fs.locate p := by
  rw [FileSystem.locate, FileSystem.locate, h.working, h.walk]

theorem find (p : Path) : fs'.find p = fs.find p := by
  rw [FileSystem.find, FileSystem.find, h.locate]
  simp only [h.node?]

theorem readText (p : Path) : fs'.readText p = fs.readText p := by
  rw [FileSystem.readText, FileSystem.readText, FileSystem.read, FileSystem.read, h.find]

end Agrees

/-! ### Files below a directory -/

/-- The names of a path below a directory are the directory's with the others behind them. -/
theorem names_join_below (working directory : Path) (below : List Text) :
    (working.join (directory.join ⟨[], below⟩)).names =
      (working.join directory).names ++ below := by
  unfold Path.join Path.isAbsolute
  by_cases h : directory.root = [] <;> simp [h]

/-- What is taken of a node is what its names say below the directory, if it is a file there. -/
private theorem eq_of_taken {key below : List Text}
    (h : (match node with
      | .file .. => if names.isPrefixOf key then some (key.drop names.length) else none
      | .directory => none) = some below) :
    key = names ++ below ∧ ∃ content time, node = .file content time := by
  cases node with
  | directory => cases h
  | file content time =>
    dsimp only at h
    split at h
    · next hprefix =>
      cases h
      exact ⟨(List.prefix_iff_eq_append.mp (List.isPrefixOf_iff_prefix.mp hprefix)).symm,
        content, time, rfl⟩
    · cases h

theorem mem_filesBelow {below : List Text} :
    below ∈ fs.filesBelow names ↔
      ∃ content time, (names ++ below, Node.file content time) ∈ fs.nodes := by
  rw [filesBelow, List.mem_filterMap]
  constructor
  · rintro ⟨⟨key, node⟩, hmem, hsome⟩
    obtain ⟨rfl, content, time, rfl⟩ := eq_of_taken hsome
    exact ⟨content, time, hmem⟩
  · rintro ⟨content, time, hmem⟩
    exact ⟨_, hmem, by simp⟩

theorem nodup_filesBelow (hdistinct : fs.HasDistinctNames) (names : List Text) :
    (fs.filesBelow names).Nodup := by
  have hnodes : fs.nodes.Pairwise fun entry entry' ↦ entry.1 ≠ entry'.1 :=
    List.pairwise_map.mp hdistinct
  apply hnodes.filterMap
  rintro ⟨key, node⟩ ⟨key', node'⟩ hne below hbelow below' hbelow' rfl
  apply hne
  exact (eq_of_taken hbelow).1.trans (eq_of_taken hbelow').1.symm

/-- The files below a directory are those that further names lead to from it, without going back by
two dots. -/
theorem mem_filesBelow_iff_isFile (htree : fs.IsTree) (hdistinct : fs.HasDistinctNames)
    {directory : Path} {below : List Text} (hlocate : fs.locate directory = .ok names)
    (hbelow : below ≠ []) :
    below ∈ fs.filesBelow names ↔
      (".." : Text) ∉ below ∧ fs.isFile (directory.join ⟨[], below⟩) = true := by
  have hfollow : fs.locate (directory.join ⟨[], below⟩) = fs.walk names below := by
    rw [FileSystem.locate] at hlocate ⊢
    rw [names_join_below, walk_append, hlocate]
    rfl
  have hnames : names ++ below ≠ [] := List.append_ne_nil_of_right_ne_nil names hbelow
  rw [mem_filesBelow]
  constructor
  · rintro ⟨content, time, hmem⟩
    obtain ⟨hplain, hparent⟩ := htree _ hmem
    have hbelowPlain : (".." : Text) ∉ below := mt (List.mem_append_right names) hplain
    rw [List.dropLast_append_of_ne_nil hbelow] at hparent
    have hnode : fs.node? (names ++ below) = some (.file content time) := by
      rw [FileSystem.node?, if_neg (by simpa using hnames)]
      exact (lookup_eq_some_iff hdistinct).mpr hmem
    exact ⟨hbelowPlain,
      isFile_of_node? (hfollow.trans (walk_of_isTree htree hbelowPlain hparent)) hnode⟩
  · rintro ⟨hplain, hfile⟩
    obtain ⟨content, time, hfind⟩ := isFile_iff.mp hfile
    simp only [FileSystem.find, hfollow, bind, Except.bind] at hfind
    split at hfind
    · cases hfind
    · next found hwalk =>
      rw [walk_eq_of_not_mem hplain hwalk] at hfind
      cases hnode : fs.node? (names ++ below) with
      | none => rw [hnode] at hfind; cases hfind
      | some node =>
        rw [hnode] at hfind
        cases hfind
        exact ⟨content, time, mem_of_node? hnames hnode⟩

end FileSystem

namespace StoryFile

open FileSystem

variable {fs fs' : FileSystem} {directory p : Path} {names below : List Text}

/-! ### Discovery -/

theorem discover_of_locate (h : fs.locate directory = .ok names) :
    discover fs directory = Path.sorted
      (((fs.filesBelow names).filter isStoryPath).map fun below ↦ directory.join ⟨[], below⟩) := by
  rw [discover, h]
  rfl

private theorem ne_nil_of_isStoryPath (h : isStoryPath below = true) : below ≠ [] := by
  rintro rfl
  exact absurd h (by decide)

theorem isStoryPath_iff :
    isStoryPath below = true ↔ isName (below.getLast?.getD []) = true ∧ excludedName ∉ below := by
  simp [isStoryPath]

/-- Discovered are the files below the directory whose names are those of story files, and that are
not below a directory of installed packages. -/
theorem mem_discover_iff (htree : fs.IsTree) (hdistinct : fs.HasDistinctNames) :
    p ∈ discover fs directory ↔
      ∃ below, p = directory.join ⟨[], below⟩ ∧ (".." : Text) ∉ below ∧
        isName (below.getLast?.getD []) = true ∧ excludedName ∉ below ∧ fs.isFile p = true := by
  cases hlocate : fs.locate directory with
  | error fault =>
    have hnone : discover fs directory = [] := by rw [discover, hlocate]
    rw [hnone]
    apply iff_of_false List.not_mem_nil
    rintro ⟨below, rfl, -, -, -, hfile⟩
    obtain ⟨content, time, hfind⟩ := isFile_iff.mp hfile
    have hfault : fs.locate (directory.join ⟨[], below⟩) = .error fault := by
      rw [FileSystem.locate] at hlocate ⊢
      rw [names_join_below, walk_append, hlocate]
      rfl
    simp only [FileSystem.find, hfault, bind, Except.bind] at hfind
    cases hfind
  | ok names =>
    rw [discover_of_locate hlocate, Path.mem_sorted, List.mem_map]
    simp only [List.mem_filter]
    constructor
    · rintro ⟨below, ⟨hmem, hstory⟩, rfl⟩
      obtain ⟨hplain, hfile⟩ := (mem_filesBelow_iff_isFile htree hdistinct hlocate
        (ne_nil_of_isStoryPath hstory)).mp hmem
      obtain ⟨hname, hexcluded⟩ := isStoryPath_iff.mp hstory
      exact ⟨below, rfl, hplain, hname, hexcluded, hfile⟩
    · rintro ⟨below, rfl, hplain, hname, hexcluded, hfile⟩
      have hstory : isStoryPath below = true := isStoryPath_iff.mpr ⟨hname, hexcluded⟩
      have hmem : below ∈ fs.filesBelow names := (mem_filesBelow_iff_isFile htree hdistinct hlocate
        (ne_nil_of_isStoryPath hstory)).mpr ⟨hplain, hfile⟩
      exact ⟨below, ⟨hmem, hstory⟩, rfl⟩

/-- The paths that are discovered come strictly one after another. -/
theorem pairwise_discover (hdistinct : fs.HasDistinctNames) (directory : Path) :
    (discover fs directory).Pairwise fun p q ↦ p.isBefore q = true := by
  cases hlocate : fs.locate directory with
  | error fault =>
    rw [discover, hlocate]
    exact List.Pairwise.nil
  | ok names =>
    rw [discover_of_locate hlocate]
    apply Path.pairwise_isBefore_sorted directory.root
    · apply ((nodup_filesBelow hdistinct names).filter _).map
      intro below below' heq
      exact List.append_cancel_left (congrArg Path.names heq)
    · intro p hp
      obtain ⟨below, -, rfl⟩ := List.mem_map.mp hp
      rfl

/-- The same files are discovered in whatever order the nodes are listed. -/
theorem discover_of_isReordering (h : IsReordering fs fs') (hdistinct : fs.HasDistinctNames)
    (directory : Path) : discover fs' directory = discover fs directory := by
  have hlocate : fs'.locate directory = fs.locate directory := (h.agrees hdistinct).locate directory
  cases hnames : fs.locate directory with
  | error fault => rw [discover, discover, hlocate, hnames]
  | ok names =>
    rw [discover_of_locate hnames, discover_of_locate (hlocate.trans hnames)]
    have hfound : (fs'.filesBelow names).Perm (fs.filesBelow names) := h.nodes.filterMap _
    apply Path.sorted_eq_of_perm directory.root ((hfound.filter _).map _)
    intro p hp
    obtain ⟨below, -, rfl⟩ := List.mem_map.mp hp
    rfl

/-! ### Records -/

theorem ofFile_of_agrees (h : Agrees fs fs') (p : Path) : ofFile fs' p = ofFile fs p := by
  rw [ofFile, ofFile, h.readText]

theorem recordsOf_of_agrees (h : Agrees fs fs') (root : Path) (paths : List Path) :
    recordsOf fs' root paths = recordsOf fs root paths := by
  induction paths with
  | nil => rfl
  | cons p rest ih =>
    rw [recordsOf, recordsOf, ofFile_of_agrees h, ih]
    simp only [importPath, h.working]

theorem catalogOf_of_agrees (h : Agrees fs fs') (root : Path) (now : Timestamp)
    (paths : List Path) : catalogOf fs' root now paths = catalogOf fs root now paths := by
  rw [catalogOf, catalogOf, recordsOf_of_agrees h]

end StoryFile

end StoryCatalog
