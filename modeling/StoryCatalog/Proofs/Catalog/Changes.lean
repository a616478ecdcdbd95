import StoryCatalog.Proofs.Catalog.Saving

/-!
# Files that change

Others write, delete and save files while a catalog is held. Every file that they put in place has a
time that no file had under its names before, so in all trees that there have been a time tells the
content of a file (`FileSystem.TimesTell.cons`). What is read from a snapshot depends on its content
alone, but for the time of a document that gives none (`Snapshot.holds_iff`).
-/

namespace StoryCatalog

namespace Binary64

theorem sameValue_comm (x y : Binary64) : x.sameValue y = y.sameValue x := by
  cases x <;> cases y <;> simp [sameValue, Bool.beq_comm, eq_comm]

/-- A number has the value of itself. -/
theorem sameValue_self {x : Binary64} (h : x ≠ .nan) : x.sameValue x = true := by
  cases x with
  | finite negative mantissa exponent => simp [sameValue]
  | infinite negative => simp [sameValue]
  | nan => exact absurd rfl h

end Binary64

namespace FileSystem

variable {fs fs' : FileSystem} {trees : List FileSystem} {p : Path} {names names' : List Text}
  {node : Node} {content content' : Bytes} {time time' : Binary64}

/-! ### Paths in trees that change -/

private theorem walk_unique {rest : List Text} :
    ∀ {directory : List Text}, fs.walk directory rest = .ok names →
      fs'.walk directory rest = .ok names' → names' = names := by
  induction rest with
  | nil =>
    intro directory h h'
    cases h
    cases h'
    rfl
  | cons name rest ih =>
    intro directory h h'
    rw [walk] at h h'
    split at h
    · split at h'
      · by_cases hdots : name = ".."
        · rw [if_pos hdots] at h h'
          exact ih h h'
        · rw [if_neg hdots] at h h'
          exact ih h h'
      · cases h'
      · cases h'
    · cases h
    · cases h

/-- Where a path can be followed in two trees, it leads to the same names. -/
theorem locate_unique (hworking : fs'.working = fs.working) (h : fs.locate p = .ok names)
    (h' : fs'.locate p = .ok names') : names' = names := by
  rw [locate, hworking] at h'
  exact walk_unique h h'

theorem find_ok_iff :
    fs.find p = .ok node ↔ ∃ names, fs.locate p = .ok names ∧ fs.node? names = some node := by
  unfold find
  cases hlocate : fs.locate p with
  | error fault => simp [bind, Except.bind]
  | ok names =>
    simp only [bind, Except.bind, Except.ok.injEq, exists_eq_left']
    cases hnode : fs.node? names <;> simp [pure, Except.pure]

/-- A path leads to a file exactly if there is a time of its last change. -/
theorem modified?_eq_some_iff :
    fs.modified? p = some time ↔ ∃ content, fs.find p = .ok (.file content time) := by
  unfold modified?
  rcases fs.find p with fault | node
  · simp
  · cases node <;> simp

/-! ### What others do -/

/-- No file under names has had a time in some trees. -/
def IsNew (trees : List FileSystem) (names : List Text) (time : Binary64) : Prop :=
  ∀ fs ∈ trees, ∀ content known, fs.node? names = some (.file content known) →
    time.sameValue known = false

/-- A file is written or deleted, or a catalog is saved. What is put in place has a time that is new
there: no file under its names has had it in the trees so far. -/
inductive Change (trees : List FileSystem) (fs : FileSystem) : FileSystem → Prop where
  | write {p : Path} {names : List Text} {content : Bytes} {time : Binary64} {fs' : FileSystem} :
    fs.locate p = .ok names → IsNew trees names time → fs.write p content time = .ok fs' →
    Change trees fs fs'
  | delete {p : Path} {fs' : FileSystem} : fs.delete p = .ok fs' → Change trees fs fs'
  | save {p : Path} {c : Catalog} {time : Binary64} {trouble : Snapshot.Trouble}
    {fs' : FileSystem} {result : Except Snapshot.SaveFault Unit} :
    Snapshot.save fs time trouble p c = (fs', result) →
    (∀ names, fs'.locate p = .ok names → IsNew trees names time) → Change trees fs fs'

theorem write_ok (hlocate : fs.locate p = .ok names) (h : fs.write p content time = .ok fs') :
    names ≠ [] ∧ fs' = fs.put names (.file content time) := by
  simp only [write, hlocate, bind, Except.bind] at h
  split at h
  · cases h
  · next hnot =>
    cases h
    refine ⟨?_, rfl⟩
    rintro rfl
    exact hnot rfl

theorem delete_ok (h : fs.delete p = .ok fs') : ∃ names, fs' = Snapshot.remove fs names := by
  simp only [delete, bind, Except.bind] at h
  split at h
  · cases h
  · next names _ =>
    split at h
    · cases h
      exact ⟨names, rfl⟩
    · cases h
    · cases h

namespace Change

/-- The directory that relative paths start from stays. -/
theorem working (h : Change trees fs fs') : fs'.working = fs.working := by
  cases h with
  | write hlocate _ hwrite =>
    rw [(write_ok hlocate hwrite).2]
    rfl
  | delete hdelete =>
    obtain ⟨names, rfl⟩ := delete_ok hdelete
    rfl
  | @save _ _ _ _ _ result hsave _ =>
    cases result with
    | error fault => exact (Snapshot.save_error hsave).2.1
    | ok _ => exact (Snapshot.keeps_save hsave).1

/-- A file that is there afterwards was there before, or its time is new. -/
theorem file_or_isNew (h : Change trees fs fs')
    (hfile : fs'.node? names = some (.file content time)) :
    fs.node? names = some (.file content time) ∨ IsNew trees names time := by
  cases h with
  | @write _ written _ _ _ hlocate hnew hwrite =>
    obtain ⟨hnames, rfl⟩ := write_ok hlocate hwrite
    by_cases hsame : written = names
    · subst hsame
      rw [node?_put_self hnames] at hfile
      cases hfile
      exact .inr hnew
    · rw [node?_put_of_ne fs _ hsame] at hfile
      exact .inl hfile
  | delete hdelete =>
    obtain ⟨deleted, rfl⟩ := delete_ok hdelete
    left
    by_cases hsame : names = deleted
    · subst hsame
      by_cases hnil : names = []
      · subst hnil
        cases hfile
      · rw [Snapshot.node?_remove_self hnil] at hfile
        cases hfile
    · rwa [Snapshot.node?_remove_of_ne hsame] at hfile
  | @save _ _ _ _ _ result hsave hnew =>
    cases result with
    | error fault => exact .inl ((Snapshot.save_error hsave).2.node?_file_iff.mp hfile)
    | ok _ =>
      obtain ⟨saved, _, -, hlocate, hnode, hothers⟩ := Snapshot.save_ok hsave
      by_cases hsame : names = saved
      · subst hsame
        rw [hnode] at hfile
        cases hfile
        exact .inr (hnew names hlocate)
      · rcases hothers names hsame with heq | ⟨-, hdirectory⟩
        · exact .inl (heq ▸ hfile)
        · rw [hdirectory] at hfile
          cases hfile

end Change

/-! ### Times -/

/-- The trees start relative paths from one directory, and whenever files under the same names have
the same time, they have the same content. -/
structure TimesTell (trees : List FileSystem) : Prop where
  working : ∀ fs ∈ trees, ∀ fs' ∈ trees, fs'.working = fs.working
  content : ∀ fs ∈ trees, ∀ fs' ∈ trees, ∀ names content time content' time',
    fs.node? names = some (.file content time) → fs'.node? names = some (.file content' time') →
    time.sameValue time' = true → content = content'

namespace TimesTell

theorem single (fs : FileSystem) : TimesTell [fs] where
  working := by simp
  content := by
    simp only [List.mem_singleton, forall_eq]
    intro names content time content' time' h h' _
    rw [h] at h'
    cases h'
    rfl

theorem mono (h : TimesTell trees) {fewer : List FileSystem} (hfewer : ∀ fs ∈ fewer, fs ∈ trees) :
    TimesTell fewer where
  working fs hfs fs' hfs' := h.working fs (hfewer fs hfs) fs' (hfewer fs' hfs')
  content fs hfs fs' hfs' := h.content fs (hfewer fs hfs) fs' (hfewer fs' hfs')

/-- Times still tell the contents after a change. -/
theorem cons (h : TimesTell trees) (hfs : fs ∈ trees) (hchange : Change trees fs fs') :
    TimesTell (fs' :: trees) where
  working := by
    have hworking : ∀ tree ∈ fs' :: trees, tree.working = fs.working := by
      intro tree htree
      rcases List.mem_cons.mp htree with rfl | htree
      · exact hchange.working
      · exact h.working fs hfs tree htree
    intro tree htree other hother
    rw [hworking tree htree, hworking other hother]
  content := by
    -- A new file is compared with those of the earlier trees; its time is none of theirs.
    have hlast : ∀ tree ∈ trees, ∀ names content time content' time',
        tree.node? names = some (.file content time) →
        fs'.node? names = some (.file content' time') →
        time.sameValue time' = true → content = content' := by
      intro tree htree names content time content' time' hfile hfile' hsame
      rcases hchange.file_or_isNew hfile' with hbefore | hnew
      · exact h.content tree htree fs hfs names _ _ _ _ hfile hbefore hsame
      · have hdifferent := hnew tree htree content time hfile
        rw [Binary64.sameValue_comm, hsame] at hdifferent
        cases hdifferent
    intro tree htree other hother names content time content' time' hfile hfile' hsame
    rcases List.mem_cons.mp htree with rfl | hearlier
    · rcases List.mem_cons.mp hother with rfl | hearlier
      · rw [hfile] at hfile'
        cases hfile'
        rfl
      · rw [Binary64.sameValue_comm] at hsame
        exact (hlast other hearlier names _ _ _ _ hfile' hfile hsame).symm
    · rcases List.mem_cons.mp hother with rfl | hearlier'
      · exact hlast tree hearlier names _ _ _ _ hfile hfile' hsame
      · exact h.content tree hearlier other hearlier' names _ _ _ _ hfile hfile' hsame

/-- A path that leads to files with the same time leads to the same content. -/
theorem content_eq (h : TimesTell trees) (hfs : fs ∈ trees) (hfs' : fs' ∈ trees)
    (hfind : fs.find p = .ok (.file content time))
    (hfind' : fs'.find p = .ok (.file content' time')) (hsame : time.sameValue time' = true) :
    content = content' := by
  obtain ⟨names, hlocate, hnode⟩ := find_ok_iff.mp hfind
  obtain ⟨names', hlocate', hnode'⟩ := find_ok_iff.mp hfind'
  rw [locate_unique (h.working fs hfs fs' hfs') hlocate hlocate'] at hnode'
  exact h.content fs hfs fs' hfs' names _ _ _ _ hnode hnode' hsame

end TimesTell

end FileSystem

/-! ### What is read from a content -/

namespace Catalog

/-- The time that a value gives, if it gives a valid one. -/
def timeOf? (value : Json) : Option Timestamp :=
  match value.field "generatedAt" with
  | .string t => Timestamp.read? t
  | _ => none

/-- Two readings of one value differ in the time at most, and only if the value gives none. -/
theorem ofJson_now (now now' : Timestamp) (value : Json) :
    ofJson now' value =
      (ofJson now value).map fun c ↦ { c with generatedAt := (timeOf? value).getD now' } := by
  have htime : timeOr now' (value.field "generatedAt") = (timeOf? value).getD now' := by
    unfold timeOf?
    cases value.field "generatedAt" <;> rfl
  unfold ofJson
  rw [htime]
  cases storiesOf? value with
  | none => rfl
  | some stories =>
    dsimp only
    cases ReadError.lift (readStories stories) with
    | error error => rfl
    | ok records =>
      cases ReadError.lift (StoryAction.textOr (value.field "version") "1.0.0") <;> rfl

end Catalog

namespace Snapshot

variable {fs fs' : FileSystem} {p : Path} {c : Catalog} {content : Bytes} {time : Binary64}
  {now : Timestamp}

/-- The value that a content is in JSON, if it is. -/
def document? (content : Bytes) : Option Json :=
  match Utf8.decode content with
  | .error _ => none
  | .ok t => (Json.read (Utf8.unifyLineBreaks t)).toOption

/-- The catalog that a content is decoded to. -/
def decode? (now : Timestamp) (content : Bytes) : Option Catalog :=
  (document? content).bind fun value ↦ (Catalog.ofJson now value).toOption

/-- The catalog of a file is what its content is decoded to. -/
theorem read?_of_find (h : fs.find p = .ok (.file content time)) (now : Timestamp) :
    read? fs now p = decode? now content := by
  have hfile : fs.isFile p = true := FileSystem.isFile_iff.mpr ⟨content, time, h⟩
  rw [read?, if_pos hfile, FileSystem.readJson, FileSystem.readText, FileSystem.read_of_find h,
    decode?, document?]
  dsimp only
  cases Utf8.decode content with
  | error fault => rfl
  | ok t =>
    dsimp only
    cases Json.read (Utf8.unifyLineBreaks t) <;> rfl

/-- A path gives a catalog: this is what is read there at some time. -/
def Holds (fs : FileSystem) (p : Path) (c : Catalog) : Prop := ∃ now, read? fs now p = some c

/-- A path gives a catalog as long as it leads to a file with the same content. -/
theorem Holds.of_content {time' : Binary64} (h : Holds fs p c)
    (hfind : fs.find p = .ok (.file content time))
    (hfind' : fs'.find p = .ok (.file content time')) : Holds fs' p c := by
  obtain ⟨now, hread⟩ := h
  rw [read?_of_find hfind] at hread
  exact ⟨now, (read?_of_find hfind' now).trans hread⟩

/-- A catalog that a path gave is what it gives whenever its file has the same time. -/
theorem Holds.of_sameTime {trees : List FileSystem} {known : Binary64} (h : Holds fs p c)
    (htell : FileSystem.TimesTell trees) (hfs : fs ∈ trees) (hfs' : fs' ∈ trees)
    (hknown : fs.modified? p = some known) (htime : fs'.modified? p = some time)
    (hsame : time.sameValue known = true) : Holds fs' p c := by
  obtain ⟨content, hfind⟩ := FileSystem.modified?_eq_some_iff.mp hknown
  obtain ⟨content', hfind'⟩ := FileSystem.modified?_eq_some_iff.mp htime
  rw [Binary64.sameValue_comm] at hsame
  have hcontent := htell.content_eq hfs hfs' hfind hfind' hsame
  subst hcontent
  exact h.of_content hfind hfind'

/-- The time that the document at a path gives, if it gives a valid one. -/
def timeAt? (fs : FileSystem) (p : Path) : Option Timestamp :=
  match fs.readJson p with
  | .ok value => Catalog.timeOf? value
  | .error _ => none

/-- Two readings of one path differ in the time at most, and only if the document gives none. -/
theorem read?_now (fs : FileSystem) (p : Path) (now now' : Timestamp) :
    read? fs now' p =
      (read? fs now p).map fun c ↦ { c with generatedAt := (timeAt? fs p).getD now' } := by
  unfold read? timeAt?
  by_cases hfile : fs.isFile p = true
  · rw [if_pos hfile, if_pos hfile]
    cases fs.readJson p with
    | error fault => rfl
    | ok value =>
      dsimp only
      rw [Catalog.ofJson_now now now']
      cases Catalog.ofJson now value <;> rfl
  · rw [if_neg hfile, if_neg hfile]
    rfl

/-- A path gives a catalog that is the one read there at any other time, the time of generation
aside if the document gives no valid one. -/
theorem holds_iff (now : Timestamp) :
    Holds fs p c ↔ ∃ found, read? fs now p = some found ∧
      c = { found with generatedAt := (timeAt? fs p).getD c.generatedAt } := by
  constructor
  · rintro ⟨now', h⟩
    rw [read?_now fs p now now'] at h
    obtain ⟨found, hfound, rfl⟩ := Option.map_eq_some_iff.mp h
    refine ⟨found, hfound, ?_⟩
    cases timeAt? fs p <;> rfl
  · rintro ⟨found, hfound, hc⟩
    refine ⟨c.generatedAt, ?_⟩
    rw [read?_now fs p now, hfound, Option.map_some]
    exact congrArg some hc.symm

/-- A catalog that a path gives has as many stories as the one that is read there at any time. -/
theorem Holds.size_eq (h : Holds fs p c) (now : Timestamp) :
    (read? fs now p).map (·.size) = some c.size := by
  obtain ⟨found, hfound, hc⟩ := (holds_iff now).mp h
  rw [hfound, hc]
  rfl

end Snapshot

end StoryCatalog
