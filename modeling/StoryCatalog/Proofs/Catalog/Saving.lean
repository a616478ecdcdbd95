import StoryCatalog.Catalog.Snapshot
import StoryCatalog.Proofs.Files

/-!
# Saving

A save that fails leaves every file as it is; one that succeeds puts the bytes of the snapshot at
its path and leaves every other file as it is (`save_error`, `save_ok`). Either way nothing but
directories is new besides, so the unfinished file is gone.
-/

namespace StoryCatalog.Snapshot

open FileSystem

variable {fs fs' : FileSystem} {p : Path} {c : Catalog} {time : Binary64} {trouble : Trouble}
  {names other : List Text} {node : Node}

/-! ### Removing the unfinished file -/

private theorem lookup_filter_ne (nodes : List (List Text × Node)) (h : other ≠ names) :
    lookup (nodes.filter (·.1 != names)) other = lookup nodes other := by
  induction nodes with
  | nil => rfl
  | cons entry rest ih =>
    obtain ⟨key, node⟩ := entry
    by_cases hkey : key = names
    · subst hkey
      rw [List.filter_cons_of_neg (by simp), ih, lookup, if_neg fun heq ↦ h heq.symm]
    · rw [List.filter_cons_of_pos (by simpa using hkey), lookup, lookup, ih]

private theorem lookup_eq_none_iff {nodes : List (List Text × Node)} :
    lookup nodes names = none ↔ ∀ entry ∈ nodes, entry.1 ≠ names := by
  induction nodes with
  | nil => simp [lookup]
  | cons entry rest ih =>
    obtain ⟨key, node⟩ := entry
    rw [lookup, List.forall_mem_cons, ← ih]
    by_cases hkey : key = names <;> simp [hkey]

theorem node?_remove_of_ne (h : other ≠ names) :
    (remove fs names).node? other = fs.node? other := by
  rw [node?, node?, remove, lookup_filter_ne fs.nodes h]

theorem node?_remove_self (h : names ≠ []) : (remove fs names).node? names = none := by
  rw [node?, if_neg (by simpa using h), remove, lookup_eq_none_iff]
  intro entry hentry
  simpa using (List.mem_filter.mp hentry).2

/-- Nothing stands under a fresh name. -/
theorem node?_freshName (fs : FileSystem) (directory : List Text) (name : Text) :
    fs.node? (directory ++ [freshName (namesIn fs directory) name]) = none := by
  rw [node?, if_neg (by simp), lookup_eq_none_iff]
  rintro ⟨key, node⟩ hentry rfl
  refine freshName_not_mem (namesIn fs directory) name ?_
  refine List.mem_filterMap.mpr ⟨_, hentry, ?_⟩
  dsimp only
  rw [if_pos List.dropLast_concat, List.getLast?_concat]

/-- A file that was put into an empty place and removed again has left no trace. -/
theorem grows_remove_put (h : fs.node? names = none) (node : Node) :
    Grows fs (remove (fs.put names node) names) := by
  refine ⟨rfl, fun other ↦ .inl ?_⟩
  by_cases hother : other = names
  · subst hother
    rw [node?_remove_self (ne_nil_of_none h), h]
  · rw [node?_remove_of_ne hother, node?_put_of_ne fs node fun heq ↦ hother heq.symm]

/-! ### Replacing the file at a path -/

/-- What a replacement leaves: the file under the path's names, and everything else but what stood
under the old names. -/
theorem rename_ok {old : List Text} (h : rename fs old p = .ok fs') :
    ∃ names node, fs.locate p = .ok names ∧ names ≠ [] ∧ fs.node? names ≠ some .directory ∧
      fs.node? old = some node ∧ fs' = (remove fs old).put names node := by
  unfold rename at h
  cases hlocate : fs.locate p with
  | error fault => rw [hlocate] at h; cases h
  | ok names =>
    rw [hlocate] at h
    dsimp only [Bind.bind, Except.bind] at h
    split at h
    · cases h
    · next node hold hnot =>
      cases h
      refine ⟨names, node, rfl, ?_, hnot, hold, rfl⟩
      rintro rfl
      exact hnot rfl
    · cases h

/-! ### Saving -/

/-- The steps of a save are over when a finished file has taken the place of what stood at the
path. -/
private def IsSaved (fs : FileSystem) (time : Binary64) (p : Path) (c : Catalog)
    (fs' : FileSystem) : Prop :=
  ∃ made old content, fs.makeDirectory p.parent = .ok made ∧ made.node? old = none ∧
    bytes c = .ok content ∧ rename (made.put old (.file content time)) old p = .ok fs'

/-- Why a save fails: a path cannot be used, the disk gives up, or the catalog has no bytes. -/
def IsCause (trouble : Trouble) (c : Catalog) (fault : SaveFault) : Prop :=
  (∃ e, fault = .file e) ∨ fault = .disk ∧ trouble ≠ .none ∨ bytes c = .error fault

/-- All that a save may come to. -/
private theorem save_cases {result : Except SaveFault Unit}
    (h : save fs time trouble p c = (fs', result)) :
    (∃ fault, result = .error fault ∧ IsCause trouble c fault ∧ Grows fs fs') ∨
      result = .ok () ∧ IsSaved fs time p c fs' := by
  have hdisk : ∀ step, trouble = step → step ≠ .none → IsCause trouble c .disk := by
    rintro step rfl hstep
    exact .inr (.inl ⟨rfl, hstep⟩)
  unfold save at h
  split at h
  · cases h
    exact .inl ⟨_, rfl, .inl ⟨_, rfl⟩, grows_refl fs⟩
  · next made hmade =>
    have hgrows := grows_makeDirectory hmade
    dsimp only at h
    split at h
    · next htrouble =>
      cases h
      exact .inl ⟨_, rfl, hdisk _ htrouble (by simp), hgrows⟩
    · split at h
      · cases h
        exact .inl ⟨_, rfl, .inl ⟨_, rfl⟩, hgrows⟩
      · next directory hdirectory =>
        have hfresh := node?_freshName made directory p.name
        have htrace := fun node ↦ hgrows.trans (grows_remove_put hfresh node)
        split at h
        · next hbytes =>
          cases h
          exact .inl ⟨_, rfl, .inr (.inr hbytes), htrace _⟩
        · next content hbytes =>
          split at h
          · next htrouble =>
            cases h
            exact .inl ⟨_, rfl, hdisk _ htrouble (by simp), htrace _⟩
          · split at h
            · next htrouble =>
              cases h
              exact .inl ⟨_, rfl, hdisk _ htrouble (by simp), htrace _⟩
            · split at h
              · cases h
                exact .inl ⟨_, rfl, .inl ⟨_, rfl⟩, htrace _⟩
              · next saved hrename =>
                cases h
                exact .inr ⟨rfl, made, _, content, hmade, hfresh, hbytes, hrename⟩

/-- A save that fails has a cause and leaves no trace but new directories. -/
theorem save_error {fault : SaveFault} (h : save fs time trouble p c = (fs', .error fault)) :
    IsCause trouble c fault ∧ Grows fs fs' := by
  rcases save_cases h with ⟨fault', hresult, hcause, hgrows⟩ | ⟨hresult, -⟩
  · cases hresult
    exact ⟨hcause, hgrows⟩
  · cases hresult

/-- The directories of a tree are kept when a file takes the place of what is no directory. -/
theorem keeps_replace {old : List Text} (hold : fs.node? old ≠ some .directory)
    (hnames : fs.node? names ≠ some .directory) (node : Node) :
    Keeps fs ((remove fs old).put names node) := by
  refine ⟨rfl, ?_⟩
  intro other hother
  have hne : names ≠ other := by
    rintro rfl
    exact hnames hother
  have hne' : other ≠ old := by
    rintro rfl
    exact hold hother
  rw [node?_put_of_ne _ _ hne, node?_remove_of_ne hne', hother]

/-- A file that was put into an empty place and removed again was the last of the nodes. -/
private theorem nodes_remove_put (h : fs.node? names = none) (node : Node) :
    (remove (fs.put names node) names).nodes = fs.nodes := by
  have hothers : ∀ entry ∈ fs.nodes, (entry.1 != names) = true := by
    rw [node?] at h
    split at h
    · cases h
    · simpa using lookup_eq_none_iff.mp h
  rw [remove, nodes_put_of_none h, List.filter_append, List.filter_eq_self.mpr hothers]
  simp

/-- What is there when a finished file has taken the place of what stood at a path. -/
private theorem exists_of_rename_put {old : List Text} {content : Bytes}
    (hfresh : fs.node? old = none)
    (h : rename (fs.put old (.file content time)) old p = .ok fs') :
    ∃ names, fs'.locate p = .ok names ∧ fs'.node? names = some (.file content time) ∧
      Keeps fs fs' ∧ fs'.nodes = putNode fs.nodes names (.file content time) ∧
      ∀ other, other ≠ names → fs'.node? other = fs.node? other := by
  obtain ⟨names, node, hlocate, hnames, hdirectory, hnode, rfl⟩ := rename_ok h
  have hold := ne_nil_of_none hfresh
  rw [node?_put_self hold] at hnode
  cases hnode
  have hfile : (fs.put old (.file content time)).node? old ≠ some .directory := by
    rw [node?_put_self hold]
    simp
  have hput := keeps_put_of_none hfresh (.file content time)
  have hkeeps := keeps_replace hfile hdirectory (.file content time)
  refine ⟨names, locate_of_keeps hkeeps hlocate, node?_put_self hnames, hput.trans hkeeps, ?_, ?_⟩
  · rw [put, nodes_remove_put hfresh]
  · intro other hother
    rw [node?_put_of_ne _ _ hother.symm]
    by_cases heq : other = old
    · rw [heq, node?_remove_self hold, hfresh]
    · rw [node?_remove_of_ne heq, node?_put_of_ne _ _ (Ne.symm heq)]

/-- A save that succeeds puts the bytes of the snapshot under the names that its path leads to, and
leaves no other trace but new directories. -/
theorem save_ok (h : save fs time trouble p c = (fs', .ok ())) :
    ∃ names content, bytes c = .ok content ∧ fs'.locate p = .ok names ∧
      fs'.node? names = some (.file content time) ∧
      ∀ other, other ≠ names → AgreesAt fs fs' other := by
  rcases save_cases h with ⟨fault, hresult, -⟩ | ⟨-, hsaved⟩
  · cases hresult
  · obtain ⟨made, old, content, hmade, hfresh, hbytes, hrename⟩ := hsaved
    obtain ⟨names, hlocate, hnode, -, -, hothers⟩ := exists_of_rename_put hfresh hrename
    refine ⟨names, content, hbytes, hlocate, hnode, ?_⟩
    intro other hother
    have hgrown := (grows_makeDirectory hmade).2 other
    unfold AgreesAt at hgrown ⊢
    rwa [hothers other hother]

/-! ### The tree after a save -/

/-- A save keeps all directories. -/
theorem keeps_save (h : save fs time trouble p c = (fs', .ok ())) : Keeps fs fs' := by
  rcases save_cases h with ⟨fault, hresult, -⟩ | ⟨-, hsaved⟩
  · cases hresult
  · obtain ⟨made, old, content, hmade, hfresh, -, hrename⟩ := hsaved
    obtain ⟨names, -, -, hkeeps, -⟩ := exists_of_rename_put hfresh hrename
    exact (grows_makeDirectory hmade).keeps.trans hkeeps

private theorem filterMap_putNode {f : List Text × Node → Option (List Text)}
    {counts : List Text → Bool}
    (hnames : ∀ node found, f (names, node) = some found → counts found = false)
    (nodes : List (List Text × Node)) :
    ((putNode nodes names node).filterMap f).filter counts =
      (nodes.filterMap f).filter counts := by
  have hnone : ∀ node rest, ((((names, node) :: rest).filterMap f).filter counts) =
      (rest.filterMap f).filter counts := by
    intro node rest
    rw [List.filterMap_cons]
    split
    · rfl
    · next found hfound =>
      rw [List.filter_cons_of_neg (by rw [hnames node found hfound]; simp)]
  induction nodes with
  | nil => exact hnone node []
  | cons entry rest ih =>
    obtain ⟨key, old⟩ := entry
    rw [putNode]
    split
    · next hkey =>
      subst hkey
      rw [hnone, hnone]
    · rw [List.filterMap_cons, List.filterMap_cons]
      split
      · exact ih
      · rw [List.filter_cons, List.filter_cons, ih]

/-- A save adds no file but that at its path: wherever its names do not count, the files below a
directory are the same. -/
theorem filesBelow_save (h : save fs time trouble p c = (fs', .ok ())) {counts : List Text → Bool}
    (hcounts : ∀ names n, fs'.locate p = .ok names → counts (names.drop n) = false)
    (directory : List Text) :
    (fs'.filesBelow directory).filter counts = (fs.filesBelow directory).filter counts := by
  rcases save_cases h with ⟨fault, hresult, -⟩ | ⟨-, hsaved⟩
  · cases hresult
  · obtain ⟨made, old, content, hmade, hfresh, -, hrename⟩ := hsaved
    obtain ⟨names, hlocate, -, -, hnodes, -⟩ := exists_of_rename_put hfresh hrename
    obtain ⟨added, hmadeNodes, hadded⟩ := nodes_makeDirectory hmade
    have hnone : ∀ f : List Text × Node → Option (List Text), (∀ key, f (key, .directory) = none) →
        added.filterMap f = [] := by
      intro f hf
      rw [List.filterMap_eq_nil_iff]
      rintro ⟨key, node⟩ hentry
      rw [show node = .directory from hadded _ hentry, hf]
    rw [filesBelow, hnodes, filterMap_putNode, hmadeNodes, List.filterMap_append,
      hnone _ fun _ ↦ rfl, List.append_nil, filesBelow]
    intro node found hfound
    dsimp only at hfound
    split at hfound
    · split at hfound
      · cases hfound
        exact hcounts names _ hlocate
      · cases hfound
    · cases hfound

/-- A catalog that has bytes can be saved where a file stands, as long as the disk does not give
up. -/
theorem save_over {content new : Bytes} (hnames : p.names ≠ []) (hlocate : fs.locate p = .ok names)
    (hnode : fs.node? names = some (.file content time)) (hbytes : bytes c = .ok new)
    (again : Binary64) : ∃ fs', save fs again .none p c = (fs', .ok ()) := by
  obtain ⟨hmade, directory, hdirectory⟩ := makeDirectory_parent hlocate hnames
  have hfresh := node?_freshName fs directory p.name
  generalize hold : directory ++ [freshName (namesIn fs directory) p.name] = old at hfresh
  have hne : old ≠ names := by
    rintro rfl
    rw [hfresh] at hnode
    cases hnode
  obtain ⟨fs', hrename⟩ : ∃ fs', rename (fs.put old (.file new again)) old p = .ok fs' := by
    unfold rename
    rw [locate_of_keeps (keeps_put_of_none hfresh _) hlocate]
    simp only [bind, Except.bind]
    rw [node?_put_of_ne fs _ hne, hnode, node?_put_self (ne_nil_of_none hfresh)]
    exact ⟨_, rfl⟩
  refine ⟨fs', ?_⟩
  rw [save, hmade]
  dsimp only
  rw [if_neg (by simp), hdirectory]
  dsimp only
  rw [hold, hbytes]
  dsimp only
  rw [if_neg (by simp), if_neg (by simp), hrename]

end StoryCatalog.Snapshot
