import StoryCatalog.Files
import StoryCatalog.Proofs.Text.Utf8

/-!
# Files before and after

What is known of the texts that files give, and how trees are compared: making a directory leaves
every file as it is and only adds directories (`grows_makeDirectory`), and a path that could be
followed leads to the same names in every tree that still has the directories (`locate_of_keeps`).
-/

namespace StoryCatalog.FileSystem

variable {fs : FileSystem} {p : Path}

/-- The text of a file holds no surrogate. -/
theorem isScalar_of_readText {source : Text} (h : fs.readText p = .ok source) :
    source.IsScalar := by
  unfold readText at h
  split at h
  · cases h
  · split at h
    · cases h
    · next hdecode =>
      cases h
      exact Utf8.isScalar_unifyLineBreaks (Utf8.isScalar_of_decode hdecode)

/-- A path to a directory can be followed. -/
theorem locate_of_isDirectory (h : fs.isDirectory p = true) : ∃ names, fs.locate p = .ok names := by
  cases hlocate : fs.locate p with
  | ok names => exact ⟨names, rfl⟩
  | error fault =>
    simp only [isDirectory, find, hlocate, bind, Except.bind] at h
    cases h

section File

variable {names : List Text} {content : Bytes} {time : Binary64}

/-- A path that leads to a file gives its content. -/
theorem read_of_node? (hlocate : fs.locate p = .ok names)
    (hnode : fs.node? names = some (.file content time)) : fs.read p = .ok content := by
  simp only [read, find, hlocate, hnode, bind, Except.bind, pure, Except.pure]

theorem read_of_find (h : fs.find p = .ok (.file content time)) : fs.read p = .ok content := by
  simp only [read, h, bind, Except.bind]
  rfl

/-- What can be read is the content of a file. -/
theorem find_of_read (h : fs.read p = .ok content) :
    ∃ time, fs.find p = .ok (.file content time) := by
  simp only [read, bind, Except.bind] at h
  split at h
  · cases h
  · next node hfind =>
    split at h
    · cases h
      exact ⟨_, hfind⟩
    · cases h

theorem isFile_iff : fs.isFile p = true ↔ ∃ content time, fs.find p = .ok (.file content time) := by
  rw [isFile]
  split
  · next content time hfind => exact iff_of_true rfl ⟨content, time, hfind⟩
  · next hnot => exact iff_of_false (by simp) fun ⟨content, time, hfind⟩ ↦ hnot content time hfind

theorem isFile_of_node? (hlocate : fs.locate p = .ok names)
    (hnode : fs.node? names = some (.file content time)) : fs.isFile p = true := by
  simp only [isFile, find, hlocate, hnode, bind, Except.bind, pure, Except.pure]

end File

/-! ### Comparing trees -/

variable {fs' fs'' : FileSystem} {names : List Text} {node : Node}

/-- What stands under names is the same in both trees, or it is a directory that is new. -/
def AgreesAt (fs fs' : FileSystem) (names : List Text) : Prop :=
  fs'.node? names = fs.node? names ∨
    fs.node? names = none ∧ fs'.node? names = some .directory

/-- The second tree is the first one with new directories at most. -/
def Grows (fs fs' : FileSystem) : Prop := fs'.working = fs.working ∧ ∀ names, AgreesAt fs fs' names

/-- Every directory of the first tree is one of the second. -/
def Keeps (fs fs' : FileSystem) : Prop :=
  fs'.working = fs.working ∧
    ∀ names, fs.node? names = some .directory → fs'.node? names = some .directory

theorem grows_refl (fs : FileSystem) : Grows fs fs := ⟨rfl, fun _ ↦ .inl rfl⟩

theorem AgreesAt.trans (h : AgreesAt fs fs' names) (h' : AgreesAt fs' fs'' names) :
    AgreesAt fs fs'' names := by
  unfold AgreesAt at h h' ⊢
  rcases h with h | ⟨hnone, h⟩
  · rwa [h] at h'
  · rcases h' with h' | ⟨hnone', -⟩
    · exact .inr ⟨hnone, h'.trans h⟩
    · rw [h] at hnone'
      cases hnone'

theorem Grows.trans (h : Grows fs fs') (h' : Grows fs' fs'') : Grows fs fs'' :=
  ⟨h'.1.trans h.1, fun names ↦ (h.2 names).trans (h'.2 names)⟩

theorem Grows.keeps (h : Grows fs fs') : Keeps fs fs' := by
  refine ⟨h.1, ?_⟩
  intro names hdirectory
  rcases h.2 names with heq | ⟨-, hnew⟩
  · rwa [heq]
  · exact hnew

theorem Keeps.trans (h : Keeps fs fs') (h' : Keeps fs' fs'') : Keeps fs fs'' :=
  ⟨h'.1.trans h.1, fun names hdirectory ↦ h'.2 names (h.2 names hdirectory)⟩

/-- The files of a tree that grows stay as they are. -/
theorem Grows.node?_file_iff (h : Grows fs fs') {content : Bytes} {time : Binary64} :
    fs'.node? names = some (.file content time) ↔ fs.node? names = some (.file content time) := by
  rcases h.2 names with heq | ⟨hnone, hnew⟩
  · rw [heq]
  · rw [hnone, hnew]
    simp

theorem node?_put_self (h : names ≠ []) : (fs.put names node).node? names = some node := by
  simp [node?, put, lookup_putNode_self, h]

theorem ne_nil_of_none (h : fs.node? names = none) : names ≠ [] := by
  rintro rfl
  cases h

/-- The directories are kept when something is put into an empty place. -/
theorem keeps_put_of_none (h : fs.node? names = none) (node : Node) :
    Keeps fs (fs.put names node) := by
  refine ⟨rfl, ?_⟩
  intro other hother
  have hne : names ≠ other := by
    rintro rfl
    rw [h] at hother
    cases hother
  rw [node?_put_of_ne _ _ hne, hother]

/-- A directory in an empty place is all that is new. -/
theorem grows_put_directory (h : fs.node? names = none) : Grows fs (fs.put names .directory) := by
  refine ⟨rfl, ?_⟩
  intro other
  by_cases hother : names = other
  · subst hother
    exact .inr ⟨h, node?_put_self (ne_nil_of_none h)⟩
  · exact .inl (node?_put_of_ne fs .directory hother)

private theorem grows_makeFrom {rest : List Text} :
    ∀ {fs : FileSystem} {directory : List Text}, fs.makeFrom directory rest = .ok fs' →
      Grows fs fs' := by
  induction rest with
  | nil =>
    intro fs directory h
    cases h
    exact grows_refl _
  | cons name rest ih =>
    intro fs directory h
    rw [makeFrom] at h
    split at h
    · exact ih h
    · dsimp only at h
      split at h
      · exact ih h
      · cases h
      · next hnone => exact (grows_put_directory hnone).trans (ih h)

private theorem putNode_of_none {nodes : List (List Text × Node)} (h : lookup nodes names = none) :
    putNode nodes names node = nodes ++ [(names, node)] := by
  induction nodes with
  | nil => rfl
  | cons entry rest ih =>
    obtain ⟨key, old⟩ := entry
    rw [lookup] at h
    split at h
    · cases h
    · next hkey => rw [putNode, if_neg hkey, ih h, List.cons_append]

/-- A node in an empty place comes last. -/
theorem nodes_put_of_none (h : fs.node? names = none) (node : Node) :
    (fs.put names node).nodes = fs.nodes ++ [(names, node)] := by
  rw [node?] at h
  split at h
  · cases h
  · exact putNode_of_none h

private theorem nodes_makeFrom {rest : List Text} :
    ∀ {fs : FileSystem} {directory : List Text}, fs.makeFrom directory rest = .ok fs' →
      ∃ added, fs'.nodes = fs.nodes ++ added ∧ ∀ entry ∈ added, entry.2 = .directory := by
  induction rest with
  | nil =>
    intro fs directory h
    cases h
    exact ⟨[], (List.append_nil _).symm, by simp⟩
  | cons name rest ih =>
    intro fs directory h
    rw [makeFrom] at h
    split at h
    · exact ih h
    · dsimp only at h
      split at h
      · exact ih h
      · cases h
      · next hnone =>
        obtain ⟨added, hnodes, hadded⟩ := ih h
        rw [nodes_put_of_none hnone, List.append_assoc, List.singleton_append] at hnodes
        exact ⟨_, hnodes, List.forall_mem_cons.mpr ⟨rfl, hadded⟩⟩

/-- The directories that are made come last. -/
theorem nodes_makeDirectory (h : fs.makeDirectory p = .ok fs') :
    ∃ added, fs'.nodes = fs.nodes ++ added ∧ ∀ entry ∈ added, entry.2 = .directory :=
  nodes_makeFrom h

/-- Making a directory adds nothing but directories. -/
theorem grows_makeDirectory (h : fs.makeDirectory p = .ok fs') : Grows fs fs' := grows_makeFrom h

private theorem walk_of_keeps (hkeeps : Keeps fs fs') {rest : List Text} :
    ∀ {directory : List Text}, fs.walk directory rest = .ok names →
      fs'.walk directory rest = .ok names := by
  induction rest with
  | nil => exact id
  | cons name rest ih =>
    intro directory h
    rw [walk] at h ⊢
    split at h
    · next hdirectory =>
      rw [hkeeps.2 directory hdirectory]
      dsimp only
      split at h
      · next hdots => rw [if_pos hdots, ih h]
      · next hdots => rw [if_neg hdots, ih h]
    · cases h
    · cases h

theorem walk_append (xs ys directory : List Text) :
    fs.walk directory (xs ++ ys) = (fs.walk directory xs).bind fun inner ↦ fs.walk inner ys := by
  induction xs generalizing directory with
  | nil => rfl
  | cons name rest ih =>
    rw [List.cons_append, walk, walk]
    split
    · split
      · exact ih _
      · exact ih _
    · rfl
    · rfl

private theorem directory_of_walk {directory rest : List Text}
    (h : fs.walk directory rest = .ok names) (hrest : rest ≠ []) :
    fs.node? directory = some .directory := by
  cases rest with
  | nil => exact absurd rfl hrest
  | cons name rest =>
    rw [walk] at h
    split at h
    · assumption
    · cases h
    · cases h

private theorem makeFrom_of_walk {rest : List Text} {last : Text} :
    ∀ {directory : List Text}, fs.walk directory (rest ++ [last]) = .ok names →
      fs.makeFrom directory rest = .ok fs := by
  induction rest with
  | nil =>
    intro directory _
    rfl
  | cons name rest ih =>
    intro directory h
    rw [List.cons_append, walk] at h
    rw [makeFrom]
    split at h
    · split at h
      · next hdots =>
        rw [if_pos hdots]
        exact ih h
      · next hdots =>
        rw [if_neg hdots]
        dsimp only
        rw [directory_of_walk h (by simp)]
        exact ih h
    · cases h
    · cases h

/-- If a path can be followed, so can the path to its parent, and all directories on the way are
there. -/
theorem makeDirectory_parent (h : fs.locate p = .ok names) (hnames : p.names ≠ []) :
    fs.makeDirectory p.parent = .ok fs ∧ ∃ directory, fs.locate p.parent = .ok directory := by
  have hsplit : (fs.working.join p).names =
      (fs.working.join p.parent).names ++ [p.names.getLast hnames] := by
    have hlast := List.dropLast_concat_getLast hnames
    unfold Path.join Path.parent Path.isAbsolute
    dsimp only
    split
    · exact hlast.symm
    · dsimp only
      rw [List.append_assoc, hlast]
  rw [locate, hsplit] at h
  refine ⟨makeFrom_of_walk h, ?_⟩
  rw [walk_append] at h
  rw [locate]
  cases hwalk : fs.walk [] (fs.working.join p.parent).names with
  | ok directory => exact ⟨directory, rfl⟩
  | error fault =>
    rw [hwalk] at h
    cases h

/-- A path leads to the same names as long as the directories are there. -/
theorem locate_of_keeps (hkeeps : Keeps fs fs') (h : fs.locate p = .ok names) :
    fs'.locate p = .ok names := by
  rw [locate, hkeeps.1]
  exact walk_of_keeps hkeeps h

/-- A path to a directory leads to one as long as the directories are there. -/
theorem isDirectory_of_keeps (hkeeps : Keeps fs fs') (h : fs.isDirectory p = true) :
    fs'.isDirectory p = true := by
  obtain ⟨names, hlocate⟩ := locate_of_isDirectory h
  simp only [isDirectory, find, hlocate, bind, Except.bind] at h
  simp only [isDirectory, find, locate_of_keeps hkeeps hlocate, bind, Except.bind]
  cases hnode : fs.node? names with
  | none =>
    rw [hnode] at h
    cases h
  | some node =>
    cases node with
    | directory =>
      rw [hkeeps.2 names hnode]
      rfl
    | file content time =>
      rw [hnode] at h
      cases h

/-- A file is found again in a tree that has grown. -/
theorem Grows.find_file (h : Grows fs fs') {content : Bytes} {time : Binary64}
    (hfind : fs.find p = .ok (.file content time)) : fs'.find p = .ok (.file content time) := by
  simp only [find, bind, Except.bind] at hfind ⊢
  split at hfind
  · cases hfind
  · next names hlocate =>
    rw [locate_of_keeps h.keeps hlocate]
    dsimp only
    split at hfind
    · next node hnode =>
      cases hfind
      rw [h.node?_file_iff.mpr hnode]
      rfl
    · cases hfind

/-- A file has the same content in a tree that has grown. -/
theorem Grows.read_ok (h : Grows fs fs') {content : Bytes} (hread : fs.read p = .ok content) :
    fs'.read p = .ok content := by
  simp only [read, bind, Except.bind] at hread ⊢
  split at hread
  · cases hread
  · next node hfind =>
    split at hread
    · next time =>
      cases hread
      rw [h.find_file hfind]
      rfl
    · cases hread

/-! ### Trees -/

/-- In a tree every node stands in a directory, and two dots are no name of a node. -/
def IsTree (fs : FileSystem) : Prop :=
  ∀ entry ∈ fs.nodes, (".." : Text) ∉ entry.1 ∧ fs.node? entry.1.dropLast = some .directory

/-- The names that a path has in a tree, counted from the root. -/
def namesOf (fs : FileSystem) (p : Path) : List Text := (fs.working.join p).names

/-- A path that does not go back by two dots. -/
def IsPlain (fs : FileSystem) (p : Path) : Prop := (".." : Text) ∉ fs.namesOf p

instance (fs : FileSystem) (p : Path) : Decidable (fs.IsPlain p) :=
  inferInstanceAs (Decidable ((".." : Text) ∉ fs.namesOf p))

theorem mem_of_lookup {nodes : List (List Text × Node)}
    (h : lookup nodes names = some node) : (names, node) ∈ nodes := by
  induction nodes with
  | nil => cases h
  | cons entry rest ih =>
    obtain ⟨key, found⟩ := entry
    rw [lookup] at h
    split at h
    · next hkey =>
      cases h
      rw [hkey]
      exact List.mem_cons_self
    · exact List.mem_cons_of_mem _ (ih h)

theorem mem_of_node? (hnames : names ≠ []) (h : fs.node? names = some node) :
    (names, node) ∈ fs.nodes := by
  rw [node?, if_neg (by simpa using hnames)] at h
  exact mem_of_lookup h

/-- All nodes on the way to a directory of a tree are directories. -/
theorem IsTree.node?_prefix (htree : fs.IsTree) {directory rest : List Text}
    (h : fs.node? (directory ++ rest) = some .directory) :
    fs.node? directory = some .directory := by
  induction rest generalizing directory with
  | nil => rwa [List.append_nil] at h
  | cons name rest ih =>
    rw [List.append_cons] at h
    have hparent := (htree _ (mem_of_node? (by simp) (ih h))).2
    rwa [List.dropLast_concat] at hparent

theorem walk_of_isTree (htree : fs.IsTree) {rest : List Text} :
    ∀ {directory : List Text}, (".." : Text) ∉ rest →
      fs.node? (directory ++ rest.dropLast) = some .directory →
      fs.walk directory rest = .ok (directory ++ rest) := by
  induction rest with
  | nil =>
    intro directory _ _
    rw [walk, List.append_nil]
  | cons name rest ih =>
    intro directory hplain h
    obtain ⟨hname, hrest⟩ := not_or.mp (mt List.mem_cons.mpr hplain)
    rw [walk, htree.node?_prefix h]
    dsimp only
    rw [if_neg (Ne.symm hname)]
    cases rest with
    | nil => rfl
    | cons next more =>
      rw [List.dropLast_cons_cons, List.append_cons] at h
      rw [ih hrest h, List.append_assoc, List.singleton_append]

/-- In a tree, whatever stands under the names of a plain path is where the path leads. -/
theorem IsTree.locate (htree : fs.IsTree) (hplain : fs.IsPlain p)
    (h : fs.node? (fs.namesOf p) = some node) : fs.locate p = .ok (fs.namesOf p) := by
  have hparent : fs.node? ([] ++ (fs.namesOf p).dropLast) = some .directory := by
    by_cases hnames : fs.namesOf p = []
    · rw [hnames]
      rfl
    · exact (htree _ (mem_of_node? hnames h)).2
  exact walk_of_isTree htree hplain hparent

theorem walk_eq_of_not_mem {rest : List Text} :
    ∀ {directory : List Text}, (".." : Text) ∉ rest → fs.walk directory rest = .ok names →
      names = directory ++ rest := by
  induction rest with
  | nil =>
    intro directory _ h
    cases h
    rw [List.append_nil]
  | cons name rest ih =>
    intro directory hplain h
    obtain ⟨hname, hrest⟩ := not_or.mp (mt List.mem_cons.mpr hplain)
    rw [walk] at h
    split at h
    · rw [if_neg (Ne.symm hname)] at h
      rw [ih hrest h, List.append_assoc, List.singleton_append]
    · cases h
    · cases h

/-- A plain path leads nowhere but to its names. -/
theorem eq_namesOf_of_locate (hplain : fs.IsPlain p) (h : fs.locate p = .ok names) :
    names = fs.namesOf p := walk_eq_of_not_mem hplain h

/-- What a plain path leads to stands under its names. -/
theorem node?_of_find (hplain : fs.IsPlain p) (h : fs.find p = .ok node) :
    fs.node? (fs.namesOf p) = some node := by
  simp only [find, bind, Except.bind] at h
  split at h
  · cases h
  · next names hlocate =>
    rw [eq_namesOf_of_locate hplain hlocate] at h
    split at h
    · next found hnode =>
      cases h
      exact hnode
    · cases h

/-- A plain path of a tree leads to what stands under its names. -/
theorem IsTree.find_of_node? (htree : fs.IsTree) (hplain : fs.IsPlain p)
    (h : fs.node? (fs.namesOf p) = some node) : fs.find p = .ok node := by
  simp only [find, htree.locate hplain h, bind, Except.bind, h]
  rfl

end StoryCatalog.FileSystem
