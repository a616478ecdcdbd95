import StoryCatalog.Catalog.Loader
import StoryCatalog.Proofs.Catalog.Changes
import StoryCatalog.Proofs.Timestamp.RoundTrip

/-!
# Loading while files change

Between the calls of one loader files change and time passes (`CatalogLoader.History`). The catalog
that its store holds was given by a file at the moment that the store names, and every load keeps
this (`History.isBacked`). So no load serves a catalog that its file has not given for as long as
the time to live (`History.isBounded`). A load after that time answers as a new loader does, unless
the file of its catalog is unchanged and a preferred path has come to hold one
(`History.isTransparent`).
-/

namespace StoryCatalog

open FileSystem Snapshot

namespace CatalogLoader

variable {l : CatalogLoader} {fs : FileSystem} {clock : Binary64} {now : Timestamp}
  {s : CatalogStore} {p : Path} {c : Catalog} {paths : List Path}

/-! ### One load -/

/-- No path holds a catalog. -/
def NoneReadable (fs : FileSystem) (paths : List Path) : Prop := ∀ p ∈ paths, ∀ c, ¬ Holds fs p c

/-- What is read first does not depend on the time, but for the time of a document that gives
none. -/
theorem firstReadable?_now (fs : FileSystem) (now now' : Timestamp) (paths : List Path) :
    firstReadable? fs now' paths = (firstReadable? fs now paths).map fun (p, c) ↦
      (p, { c with generatedAt := (timeAt? fs p).getD now' }) := by
  induction paths with
  | nil => rfl
  | cons p rest ih =>
    unfold firstReadable? at ih ⊢
    rw [List.findSome?_cons, List.findSome?_cons, read?_now fs p now now']
    cases read? fs now p with
    | none => simpa using ih
    | some c => rfl

/-- Nothing is read first exactly if no path holds a catalog. -/
theorem firstReadable?_eq_none_iff :
    firstReadable? fs now paths = none ↔ NoneReadable fs paths := by
  simp only [firstReadable?, List.findSome?_eq_none_iff, Option.map_eq_none_iff, NoneReadable]
  constructor
  · rintro hnone p hp c ⟨now', hread⟩
    rw [read?_now fs p now now', hnone p hp] at hread
    cases hread
  · intro hnone p hp
    cases hread : read? fs now p with
    | none => rfl
    | some c => exact absurd ⟨now, hread⟩ (hnone p hp c)

/-- What is read first stands at one of the paths. -/
theorem holds_of_firstReadable? (h : firstReadable? fs now paths = some (p, c)) :
    p ∈ paths ∧ Holds fs p c := by
  obtain ⟨q, hq, hread⟩ := List.exists_of_findSome?_eq_some h
  obtain ⟨found, hfound, hpair⟩ := Option.map_eq_some_iff.mp hread
  cases hpair
  exact ⟨hq, now, hfound⟩

/-- What is read at a path is read first if no path before it holds anything. -/
theorem firstReadable?_of_read? (hp : p ∈ paths) (hread : read? fs now p = some c)
    (hbefore : NoneReadable fs (paths.takeWhile (· ≠ p))) :
    firstReadable? fs now paths = some (p, c) := by
  induction paths with
  | nil => cases hp
  | cons q rest ih =>
    rw [firstReadable?, List.findSome?_cons]
    by_cases hq : q = p
    · subst hq
      rw [hread]
      rfl
    · rw [List.takeWhile_cons_of_pos (by simpa using hq)] at hbefore
      have hnone : read? fs now q = none := by
        cases hread : read? fs now q with
        | none => rfl
        | some c => exact absurd ⟨now, hread⟩ (hbefore q List.mem_cons_self c)
      rw [hnone]
      exact ih (List.mem_of_ne_of_mem (Ne.symm hq) hp)
        fun q hq ↦ hbefore q (List.mem_cons_of_mem _ hq)

/-- A catalog is unchanged if its file is there with the time that is known of it. -/
theorem isUnchanged_iff : isUnchanged fs s = true ↔ ∃ source time known,
    s.source? = some source ∧ fs.modified? source = some time ∧
      s.sourceModified? = some known ∧ time.sameValue known = true := by
  unfold isUnchanged
  cases s.source? with
  | none => simp
  | some source =>
    cases htime : fs.modified? source with
    | none => simp [htime]
    | some time =>
      obtain ⟨content, hfind⟩ := modified?_eq_some_iff.mp htime
      have hfile : fs.isFile source = true := isFile_iff.mpr ⟨content, time, hfind⟩
      cases s.sourceModified? <;> simp [hfile, htime]

/-- Reading answers with what the preferred path gives. -/
theorem fst_reload (l : CatalogLoader) (fs : FileSystem) (clock : Binary64) (now : Timestamp)
    (s : CatalogStore) :
    (l.reload fs clock now s).1 = (firstReadable? fs now l.paths).map (·.2) := by
  rw [reload]
  cases firstReadable? fs now l.paths <;> rfl

/-- A load with an empty store reads the preferred snapshot. -/
theorem load_of_get?_eq_none (h : s.get? = none) :
    l.load fs clock now s = l.reload fs clock now s := by
  rw [load, h]

/-- A load that is neither fresh nor unchanged reads the preferred snapshot. -/
theorem load_of_changed (hstale : s.isFresh clock l.ttl = false)
    (hchanged : isUnchanged fs s = false) :
    l.load fs clock now s = l.reload fs clock now s := by
  rw [load]
  cases s.get? with
  | none => rfl
  | some c => simp [hstale, hchanged]

/-- An unchanged catalog is taken in again. -/
theorem load_of_isUnchanged (hstale : s.isFresh clock l.ttl = false)
    (hunchanged : isUnchanged fs s = true) (hget : s.get? = some c) :
    l.load fs clock now s = (some c, s.replace fs clock c s.source?) := by
  simp [load, hget, hstale, hunchanged]

/-! ### Unchanged files -/

/-- A path that leads to a file with a time gives a catalog. -/
def Vouches (fs : FileSystem) (p : Path) (c : Catalog) : Prop :=
  ∀ time, fs.modified? p = some time → time ≠ .nan → Holds fs p c

/-- What a store holds came with the time of a file that gave it, in one of some trees. -/
def IsVouched (trees : List FileSystem) (s : CatalogStore) : Prop :=
  ∀ held, s.holding = some held → ∃ source, held.source = some source ∧ ∃ fs ∈ trees,
    held.sourceModified = fs.modified? source ∧ Vouches fs source held.catalog

theorem IsVouched.mono {trees more : List FileSystem} (h : IsVouched trees s)
    (hmore : ∀ fs ∈ trees, fs ∈ more) : IsVouched more s := by
  intro held hheld
  obtain ⟨source, hsource, fs, hfs, hvouches⟩ := h held hheld
  exact ⟨source, hsource, fs, hmore fs hfs, hvouches⟩

/-- As long as times tell the contents of files, a catalog that is vouched for is the one that its
unchanged file gives. -/
theorem IsVouched.holds {trees : List FileSystem} (hvouched : IsVouched trees s)
    (htell : TimesTell trees) (hfs : fs ∈ trees) (hunchanged : isUnchanged fs s = true) :
    ∃ source c, s.source? = some source ∧ s.get? = some c ∧ Holds fs source c := by
  obtain ⟨source, time, known, hsource, htime, hknown, hsame⟩ := isUnchanged_iff.mp hunchanged
  obtain ⟨held, hheld, hheldSource⟩ := Option.bind_eq_some_iff.mp hsource
  obtain ⟨source', hsource', fs', hfs', hmodified, hvouches⟩ := hvouched held hheld
  obtain rfl : source' = source := Option.some.inj (hsource'.symm.trans hheldSource)
  rw [CatalogStore.sourceModified?, hheld, Option.bind_some, hmodified] at hknown
  have hnumber : known ≠ .nan := by
    rintro rfl
    cases time <;> cases hsame
  have hget : s.get? = some held.catalog := by rw [CatalogStore.get?, hheld, Option.map_some]
  refine ⟨source', held.catalog, hsource, hget, ?_⟩
  exact (hvouches known hknown hnumber).of_sameTime htell hfs' hfs hknown htime hsame

/-! ### Histories -/

/-- What there is between two calls: the files, the clock, and the store of a loader. -/
structure Moment where
  files : FileSystem
  clock : Binary64
  store : CatalogStore

/-- How a moment can come about, starting with an empty store. The moments before it come with it,
the last one first. -/
inductive History (l : CatalogLoader) : List Moment → Moment → Prop where
  | start (files : FileSystem) (clock : Binary64) : History l [] ⟨files, clock, .empty⟩
  | load {past : List Moment} {m : Moment} (now : Timestamp) : History l past m →
    History l (m :: past) { m with store := (l.load m.files m.clock now m.store).2 }
  | change {past : List Moment} {m : Moment} {files : FileSystem} : History l past m →
    Change ((m :: past).map (·.files)) m.files files → History l (m :: past) { m with files }
  | tick {past : List Moment} {m : Moment} (clock : Binary64) : History l past m →
    History l (m :: past) { m with clock }

/-- A catalog was taken in at a moment, from a file that gave it then. -/
structure TakenAt (m : Moment) (p : Path) (held : Holding) : Prop where
  source : held.source = some p
  loadedAt : held.loadedAt = m.clock
  sourceModified : held.sourceModified = m.files.modified? p
  holds : Holds m.files p held.catalog

/-- What a store holds was taken in at one of some moments, from one of the loader's paths. -/
def IsBacked (l : CatalogLoader) (moments : List Moment) (s : CatalogStore) : Prop :=
  ∀ held, s.holding = some held → ∃ source ∈ l.paths, ∃ m ∈ moments, TakenAt m source held

/-- The file of the current catalog is unchanged, but a path before it has come to hold a catalog
too. -/
def IsOvertaken (l : CatalogLoader) (fs : FileSystem) (s : CatalogStore) : Prop :=
  isUnchanged fs s = true ∧ ∃ source, s.source? = some source ∧
    ¬ NoneReadable fs (l.paths.takeWhile (· ≠ source))

variable {past moments : List Moment} {m : Moment} {held : Holding} {source : Path}

theorem IsBacked.mono (h : l.IsBacked moments s) {more : List Moment}
    (hmore : ∀ m ∈ moments, m ∈ more) : l.IsBacked more s := by
  intro held hheld
  obtain ⟨source, hsource, m, hm, htaken⟩ := h held hheld
  exact ⟨source, hsource, m, hmore m hm, htaken⟩

/-- Files that gave what was taken from them vouch for it. -/
theorem IsBacked.isVouched (h : l.IsBacked moments s) : IsVouched (moments.map (·.files)) s := by
  intro held hheld
  obtain ⟨source, -, m, hm, htaken⟩ := h held hheld
  exact ⟨source, htaken.source, m.files, List.mem_map_of_mem hm, htaken.sourceModified,
    fun _ _ _ ↦ htaken.holds⟩

theorem IsBacked.mem_paths (h : l.IsBacked moments s) (hsource : s.source? = some source) :
    source ∈ l.paths := by
  obtain ⟨held, hheld, hheldSource⟩ := Option.bind_eq_some_iff.mp hsource
  obtain ⟨source', hmem, _, _, htaken⟩ := h held hheld
  obtain rfl : source' = source := Option.some.inj (htaken.source.symm.trans hheldSource)
  exact hmem

/-- As long as times tell the contents of files, an unchanged file still gives the catalog that was
taken from it. -/
theorem holds_of_isUnchanged (htell : TimesTell (moments.map (·.files)))
    (hbacked : l.IsBacked moments s) (hm : m ∈ moments)
    (hunchanged : isUnchanged m.files s = true) :
    ∃ source ∈ l.paths, ∃ c, s.source? = some source ∧ s.get? = some c ∧
      Holds m.files source c := by
  obtain ⟨source, c, hsource, hrest⟩ :=
    hbacked.isVouched.holds htell (List.mem_map_of_mem hm) hunchanged
  exact ⟨source, hbacked.mem_paths hsource, c, hsource, hrest⟩

/-- A load after the time to live serves what one of the paths gives, and takes it in; or no path
gives anything, and the store is emptied. -/
theorem load_of_stale (htell : TimesTell (moments.map (·.files)))
    (hbacked : l.IsBacked moments m.store) (hm : m ∈ moments)
    (hstale : m.store.isFresh m.clock l.ttl = false) (now : Timestamp) :
    (∃ source ∈ l.paths, ∃ c, Holds m.files source c ∧
      l.load m.files m.clock now m.store =
        (some c, m.store.replace m.files m.clock c (some source))) ∨
    NoneReadable m.files l.paths ∧ l.load m.files m.clock now m.store = (none, .empty) := by
  by_cases hunchanged : isUnchanged m.files m.store = true
  · obtain ⟨source, hsource, c, hfrom, hget, hholds⟩ :=
      holds_of_isUnchanged htell hbacked hm hunchanged
    left
    refine ⟨source, hsource, c, hholds, ?_⟩
    rw [load_of_isUnchanged hstale hunchanged hget, hfrom]
  · rw [load_of_changed hstale (Bool.eq_false_iff.mpr hunchanged), reload]
    cases hfirst : firstReadable? m.files now l.paths with
    | none => exact .inr ⟨firstReadable?_eq_none_iff.mp hfirst, rfl⟩
    | some found =>
      obtain ⟨source, c⟩ := found
      obtain ⟨hsource, hholds⟩ := holds_of_firstReadable? hfirst
      exact .inl ⟨source, hsource, c, hholds, rfl⟩

/-- What a load leaves in the store was taken in before, or at the moment of the load. -/
theorem IsBacked.load (htell : TimesTell (moments.map (·.files)))
    (hbacked : l.IsBacked moments m.store) (hm : m ∈ moments) (now : Timestamp) :
    l.IsBacked moments (l.load m.files m.clock now m.store).2 := by
  cases hfresh : m.store.isFresh m.clock l.ttl with
  | true => rwa [load_of_isFresh l m.files now hfresh]
  | false =>
    rcases load_of_stale htell hbacked hm hfresh now with
      ⟨source, hsource, c, hholds, hload⟩ | ⟨-, hload⟩
    · rw [hload]
      rintro held ⟨⟩
      exact ⟨source, hsource, m, hm, rfl, rfl, rfl, hholds⟩
    · rw [hload]
      rintro held ⟨⟩

/-! ### A tree to write to -/

/-- A tree in which the second path gives a catalog without stories. -/
def secondOnly : FileSystem :=
  ⟨⟨"/", []⟩, [(["b"], .file ((Text.ofString "\x7b\x7d").flatMap Utf8.encodeCodePoint) (.ofInt 0))]⟩

/-- The tree after the document of a catalog with one story was written under a name. -/
def withOneStory (name : Text) : FileSystem :=
  let document := Text.ofString "\x7b\"stories\":\x7b\"a\":\x7b\x7d\x7d\x7d"
  secondOnly.put [name] (.file (document.flatMap Utf8.encodeCodePoint) (.ofInt 1))

theorem change_secondOnly {name : Text} (h : name = "a" ∨ name = "b") {trees : List FileSystem}
    (htrees : ∀ fs ∈ trees, fs = secondOnly) : Change trees secondOnly (withOneStory name) := by
  have hnew : IsNew trees [name] (.ofInt 1) := by
    intro fs hfs content known hfile
    obtain rfl := htrees fs hfs
    rcases h with rfl | rfl
    · cases hfile
    · cases hfile
      decide +kernel
  rcases h with rfl | rfl
  · exact .write (p := ⟨"/", ["a"]⟩) rfl hnew rfl
  · exact .write (p := ⟨"/", ["b"]⟩) rfl hnew rfl

namespace History

/-- Times tell the contents of the files that there have been. -/
theorem timesTell (h : l.History past m) : TimesTell ((m :: past).map (·.files)) := by
  induction h with
  | start files clock => exact .single files
  | load now _ ih =>
    apply ih.mono
    simp
  | change _ hchange ih => exact ih.cons (by simp) hchange
  | tick clock _ ih =>
    apply ih.mono
    simp

/-- What the store holds was taken in at an earlier moment, or at this one. -/
theorem isBacked (h : l.History past m) : l.IsBacked (m :: past) m.store := by
  induction h with
  | start files clock =>
    rintro held ⟨⟩
  | load now hpast ih =>
    exact (ih.load hpast.timesTell List.mem_cons_self now).mono fun _ ↦ List.mem_cons_of_mem _
  | change _ _ ih => exact ih.mono fun _ ↦ List.mem_cons_of_mem _
  | tick clock _ ih => exact ih.mono fun _ ↦ List.mem_cons_of_mem _

/-! ### A history with two paths -/

/-- A loader with two paths that serves a catalog for five seconds. -/
def twoPaths : CatalogLoader := ⟨[⟨"/", ["a"]⟩, ⟨"/", ["b"]⟩], .ofInt 5⟩

/-- After a load one story was written under a name, and time has passed. -/
def momentAfter (name : Text) (clock : Binary64) : Moment where
  files := withOneStory name
  clock := clock
  store := (twoPaths.load secondOnly (.ofInt 0) .secondOfJanuary .empty).2

private theorem exists_history {name : Text} (h : name = "a" ∨ name = "b") (clock : Binary64) :
    ∃ past, twoPaths.History past (momentAfter name clock) := by
  have hloaded := History.load .secondOfJanuary (.start (l := twoPaths) secondOnly (.ofInt 0))
  exact ⟨_, .tick clock (.change hloaded (change_secondOnly h (by simp)))⟩

/-- The number of stories that a load serves after one story was written. -/
def sizeServed (name : Text) (clock : Binary64) : Option Nat :=
  let m := momentAfter name clock
  (twoPaths.load m.files m.clock .secondOfJanuary m.store).1.map (·.size)

/-! ### Bounded staleness -/

/-- What is known of the answer of a load and of the store that it leaves. -/
structure IsBounded (l : CatalogLoader) (past : List Moment) (m : Moment)
    (result : Option Catalog × CatalogStore) : Prop where
  /-- A catalog that is served is given by its file now, or was less than the time to live ago. -/
  served : ∀ c, result.1 = some c → ∃ source, result.2.source? = some source ∧
    (Holds m.files source c ∨ ∃ earlier ∈ m :: past,
      Binary64.lt (m.clock.sub earlier.clock) l.ttl = true ∧ Holds earlier.files source c)
  /-- Without a catalog no path gives one, and the store is empty. -/
  cleared : result.1 = none → NoneReadable m.files l.paths ∧ result.2.get? = none ∧
    result.2.loadedAt? = none ∧ result.2.source? = none ∧ result.2.sourceModified? = none

/-- **Bounded staleness.** However files have changed and time has passed between the loads of a
loader, the next load serves what a file gives, or gave less than the time to live ago; or no path
gives a catalog, and the store is emptied. -/
theorem isBounded (h : l.History past m) (now : Timestamp) :
    IsBounded l past m (l.load m.files m.clock now m.store) := by
  cases hfresh : m.store.isFresh m.clock l.ttl with
  | true =>
    rw [load_of_isFresh l m.files now hfresh]
    rcases hholding : m.store.holding with _ | held
    · simp [CatalogStore.isFresh, hholding] at hfresh
    · obtain ⟨source, -, earlier, hearlier, htaken⟩ := h.isBacked held hholding
      have hrecent : Binary64.lt (m.clock.sub earlier.clock) l.ttl = true := by
        simpa [CatalogStore.isFresh, hholding, htaken.loadedAt] using hfresh
      constructor
      · intro c hc
        rw [CatalogStore.get?, hholding] at hc
        cases hc
        refine ⟨source, ?_, .inr ⟨earlier, hearlier, hrecent, htaken.holds⟩⟩
        rw [CatalogStore.source?, hholding, Option.bind_some, htaken.source]
      · intro hnone
        rw [CatalogStore.get?, hholding] at hnone
        cases hnone
  | false =>
    rcases load_of_stale h.timesTell h.isBacked List.mem_cons_self hfresh now with
      ⟨source, hsource, c, hholds, hload⟩ | ⟨hnone, hload⟩
    · rw [hload]
      constructor
      · rintro c ⟨⟩
        exact ⟨source, rfl, .inl hholds⟩
      · rintro ⟨⟩
    · rw [hload]
      constructor
      · rintro c ⟨⟩
      · exact fun _ ↦ ⟨hnone, rfl, rfl, rfl, rfl⟩

/-- Within the time to live the catalog is served that the file gave before. -/
theorem isBounded_rewritten : ∃ past, twoPaths.History past (momentAfter "b" (.ofInt 3)) ∧
    IsBounded twoPaths past (momentAfter "b" (.ofInt 3))
      (let m := momentAfter "b" (.ofInt 3)
       twoPaths.load m.files m.clock .secondOfJanuary m.store) ∧
    sizeServed "b" (.ofInt 3) = some 0 := by
  obtain ⟨past, hpast⟩ := exists_history (.inr rfl) (.ofInt 3)
  exact ⟨past, hpast, isBounded hpast .secondOfJanuary, by decide +kernel⟩

/-! ### Agreement with a new loader -/

/-- What is known of the answer of a load after the time to live. -/
structure IsTransparent (l : CatalogLoader) (m : Moment) (answer : Option Catalog) : Prop where
  /-- It is the answer of a new loader, which is what the preferred path gives. -/
  renewed : ¬ l.IsOvertaken m.files m.store → ∃ now,
    answer = (l.load m.files m.clock now .empty).1 ∧
      answer = (firstReadable? m.files now l.paths).map (·.2)
  /-- The file that the current catalog came from is served if it was overtaken. -/
  overtaken : l.IsOvertaken m.files m.store → ∃ source c, m.store.source? = some source ∧
    answer = some c ∧ Holds m.files source c

/-- **A load after the time to live.** However files have changed and time has passed, a load that
finds the catalog no longer fresh answers as a new loader does at that moment; only if the file of
the catalog is unchanged is that served although a preferred path has come to hold a catalog. -/
theorem isTransparent (h : l.History past m) (hstale : m.store.isFresh m.clock l.ttl = false)
    (now : Timestamp) : IsTransparent l m (l.load m.files m.clock now m.store).1 := by
  by_cases hunchanged : isUnchanged m.files m.store = true
  · obtain ⟨source, hsource, c, hfrom, hget, hholds⟩ :=
      holds_of_isUnchanged h.timesTell h.isBacked List.mem_cons_self hunchanged
    rw [load_of_isUnchanged hstale hunchanged hget]
    constructor
    · intro hnot
      have hbefore : NoneReadable m.files (l.paths.takeWhile (· ≠ source)) :=
        Classical.byContradiction fun hreadable ↦ hnot ⟨hunchanged, source, hfrom, hreadable⟩
      obtain ⟨now', hread⟩ := hholds
      have hfirst := firstReadable?_of_read? hsource hread hbefore
      refine ⟨now', ?_, ?_⟩
      · rw [load_of_get?_eq_none rfl, fst_reload, hfirst, Option.map_some]
      · rw [hfirst, Option.map_some]
    · exact fun _ ↦ ⟨source, c, hfrom, rfl, hholds⟩
  · rw [load_of_changed hstale (Bool.eq_false_iff.mpr hunchanged)]
    constructor
    · intro _
      refine ⟨now, ?_, fst_reload ..⟩
      rw [load_of_get?_eq_none rfl, fst_reload, fst_reload]
    · exact fun hovertaken ↦ absurd hovertaken.1 hunchanged

/-- After the time to live a new catalog is served if it stands where the last one was. -/
theorem isTransparent_rewritten : ∃ past, twoPaths.History past (momentAfter "b" (.ofInt 10)) ∧
    (momentAfter "b" (.ofInt 10)).store.isFresh (.ofInt 10) twoPaths.ttl = false ∧
    IsTransparent twoPaths (momentAfter "b" (.ofInt 10))
      (let m := momentAfter "b" (.ofInt 10)
       (twoPaths.load m.files m.clock .secondOfJanuary m.store).1) ∧
    sizeServed "b" (.ofInt 10) = some 1 := by
  obtain ⟨past, hpast⟩ := exists_history (.inr rfl) (.ofInt 10)
  have hstale : (momentAfter "b" (.ofInt 10)).store.isFresh (.ofInt 10) twoPaths.ttl = false := by
    decide +kernel
  exact ⟨past, hpast, hstale, isTransparent hpast hstale .secondOfJanuary, by decide +kernel⟩

/-- A new catalog at a preferred path is not served as long as the file of the last one is
unchanged, though a new loader serves it. -/
theorem not_renewed_beside_unchanged : ¬ ∀ (l : CatalogLoader) (past : List Moment) (m : Moment),
    l.History past m → m.store.isFresh m.clock l.ttl = false → ∀ now, ∃ now',
      (l.load m.files m.clock now m.store).1 = (l.load m.files m.clock now' .empty).1 := by
  intro hrenewed
  obtain ⟨past, hpast⟩ := exists_history (.inl rfl) (.ofInt 10)
  obtain ⟨now', heq⟩ := hrenewed _ _ _ hpast (by decide +kernel) .secondOfJanuary
  have hserved : sizeServed "a" (.ofInt 10) = some 0 := by decide +kernel
  have hsize : (firstReadable? (momentAfter "a" (.ofInt 10)).files .secondOfJanuary
      twoPaths.paths).map (·.2.size) = some 1 := by
    decide +kernel
  rw [sizeServed, heq, load_of_get?_eq_none rfl, fst_reload,
    firstReadable?_now _ .secondOfJanuary now'] at hserved
  simp only [Option.map_map] at hserved
  have : some 1 = some 0 := hsize.symm.trans hserved
  cases this

end History

end CatalogLoader

end StoryCatalog
