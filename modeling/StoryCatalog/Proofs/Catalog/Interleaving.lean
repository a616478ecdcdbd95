import StoryCatalog.Proofs.Catalog.Histories

/-!
# Loading step by step

A load looks at files several times, and others may change them in between. `Machine.step` is a load
with one look at most in each step; steps that nothing comes between are the load
(`Machine.completes_load`). A catalog is taken in with the time of its file, but that time is taken
last: changes are noticed afterwards exactly if the file still gave the catalog then, as it does
when nothing replaces it after the step that got the catalog (`Machine.Run.holdsCurrent_iff`).
-/

namespace StoryCatalog

open FileSystem Snapshot

namespace CatalogLoader

/-- Where a load stands: what it looks at next, with what it has got so far. -/
inductive Phase where
  /-- No load is in progress. -/
  | idle
  /-- The catalog of the store is kept if its file is still there. -/
  | checking (p : Path) (c : Catalog)
  /-- The file was there; the catalog is kept if the time of its last change is the known one. -/
  | comparing (p : Path) (c : Catalog)
  /-- Looks whether the first of the paths leads to a file. -/
  | looking (rest : List Path)
  /-- Reads the file that was there. -/
  | reading (p : Path) (rest : List Path)
  /-- Takes in a catalog, with the time of the last change of its file. -/
  | taking (p : Path) (c : Catalog)

/-- The files, the clock, the store of a loader, and where the loader stands. -/
structure Machine where
  files : FileSystem
  clock : Binary64
  store : CatalogStore
  phase : Phase

namespace Machine

variable {l : CatalogLoader} {fs files : FileSystem} {clock : Binary64} {now : Timestamp}
  {s : CatalogStore} {p : Path} {c : Catalog} {m m' : Machine} {phase : Phase}

/-- Where a loader stands once it has been asked for the catalog. A fresh one is served at once. -/
def beginning (l : CatalogLoader) (clock : Binary64) (s : CatalogStore) : Phase :=
  match s.get?, s.source? with
  | none, _ => .looking l.paths
  | some c, source =>
    if s.isFresh clock l.ttl then .idle
    else
      match source with
      | none => .looking l.paths
      | some p => .checking p c

/-- The next step of the loader; between two loads it is asked for the catalog. -/
def step (l : CatalogLoader) (now : Timestamp) (m : Machine) : Machine :=
  match m.phase with
  | .idle => { m with phase := beginning l m.clock m.store }
  | .checking p c =>
    { m with phase := if m.files.isFile p then .comparing p c else .looking l.paths }
  | .comparing p c =>
    match m.files.modified? p, m.store.sourceModified? with
    | some time, some known =>
      { m with phase := if time.sameValue known then .taking p c else .looking l.paths }
    | _, _ => { m with phase := .looking l.paths }
  | .looking [] => { m with store := m.store.invalidate, phase := .idle }
  | .looking (p :: rest) =>
    { m with phase := if m.files.isFile p then .reading p rest else .looking rest }
  | .reading p rest =>
    -- A file that has gone since the last step gives nothing.
    match read? m.files now p with
    | some c => { m with phase := .taking p c }
    | none => { m with phase := .looking rest }
  | .taking p c =>
    { m with store := m.store.replace m.files m.clock c (some p), phase := .idle }

/-- What is compared is whether the catalog of the store is unchanged. -/
theorem step_comparing (l : CatalogLoader) (fs : FileSystem) (clock : Binary64) (now : Timestamp)
    (c : Catalog) (hsource : s.source? = some p) :
    step l now ⟨fs, clock, s, .comparing p c⟩ =
      ⟨fs, clock, s, if isUnchanged fs s then .taking p c else .looking l.paths⟩ := by
  by_cases hunchanged : isUnchanged fs s = true
  · obtain ⟨source, time, known, hsource', htime, hknown, hsame⟩ := isUnchanged_iff.mp hunchanged
    obtain rfl : p = source := Option.some.inj (hsource.symm.trans hsource')
    simp [step, htime, hknown, hsame, hunchanged]
  · rw [if_neg hunchanged]
    cases htime : fs.modified? p with
    | none => simp [step, htime]
    | some time =>
      cases hknown : s.sourceModified? with
      | none => simp [step, htime, hknown]
      | some known =>
        have hdifferent : ¬ time.sameValue known = true := fun hsame ↦
          hunchanged (isUnchanged_iff.mpr ⟨p, time, known, hsource, htime, hknown, hsame⟩)
        simp [step, htime, hknown, hdifferent]

/-! ### Steps that nothing comes between -/

/-- Steps of the loader, up to the first after which no load is in progress. -/
inductive Completes (l : CatalogLoader) (now : Timestamp) : Machine → Machine → Prop where
  | last {m : Machine} : (m.step l now).phase = .idle → Completes l now m (m.step l now)
  | next {m m' : Machine} : (m.step l now).phase ≠ .idle → Completes l now (m.step l now) m' →
    Completes l now m m'

/-- A step to a phase of the load goes before the others. -/
theorem Completes.after (phase' : Phase)
    (h : step l now ⟨fs, clock, s, phase⟩ = ⟨fs, clock, s, phase'⟩) (hphase : phase' ≠ .idle)
    (hcompletes : Completes l now ⟨fs, clock, s, phase'⟩ m') :
    Completes l now ⟨fs, clock, s, phase⟩ m' := by
  rw [← h] at hcompletes
  exact .next (by rwa [h]) hcompletes

/-- A step after which no load is in progress is the last one. -/
theorem Completes.of_step (h : step l now m = m') (hphase : m'.phase = .idle) :
    Completes l now m m' := by
  subst h
  exact .last hphase

private theorem completes_taking (l : CatalogLoader) (now : Timestamp) :
    Completes l now ⟨fs, clock, s, .taking p c⟩ ⟨fs, clock, s.replace fs clock c (some p), .idle⟩ :=
  .of_step rfl rfl

/-- Looking through paths is reading the preferred snapshot. -/
private theorem completes_looking (l : CatalogLoader) (fs : FileSystem) (clock : Binary64)
    (now : Timestamp) (s : CatalogStore) (paths : List Path) :
    Completes l now ⟨fs, clock, s, .looking paths⟩
      ⟨fs, clock, (reload ⟨paths, l.ttl⟩ fs clock now s).2, .idle⟩ := by
  induction paths with
  | nil => exact .of_step rfl rfl
  | cons p rest ih =>
    rw [reload, firstReadable?] at ih ⊢
    rw [List.findSome?_cons]
    by_cases hfile : fs.isFile p = true
    · refine .after (.reading p rest) (by simp [step, hfile]) (by simp) ?_
      cases hread : read? fs now p with
      | none => exact .after (.looking rest) (by simp [step, hread]) (by simp) ih
      | some c =>
        exact .after (.taking p c) (by simp [step, hread]) (by simp) (completes_taking l now)
    · rw [read?, if_neg hfile]
      exact .after (.looking rest) (by simp [step, hfile]) (by simp) ih

/-- A catalog whose file is unchanged is taken in again; otherwise the preferred snapshot is
read. -/
private theorem completes_checking (l : CatalogLoader) (fs : FileSystem) (clock : Binary64)
    (now : Timestamp) (c : Catalog) (hsource : s.source? = some p) :
    Completes l now ⟨fs, clock, s, .checking p c⟩
      ⟨fs, clock, if isUnchanged fs s then s.replace fs clock c (some p)
        else (l.reload fs clock now s).2, .idle⟩ := by
  have hlooking := completes_looking l fs clock now s l.paths
  by_cases hfile : fs.isFile p = true
  · refine .after (.comparing p c) (by simp [step, hfile]) (by simp) ?_
    have hcomparing := step_comparing l fs clock now c hsource
    by_cases hunchanged : isUnchanged fs s = true
    · rw [if_pos hunchanged] at hcomparing ⊢
      exact .after _ hcomparing (by simp) (completes_taking l now)
    · rw [if_neg hunchanged] at hcomparing ⊢
      exact .after _ hcomparing (by simp) hlooking
  · have hchanged : ¬ isUnchanged fs s = true := by simp [isUnchanged, hsource, hfile]
    rw [if_neg hchanged]
    exact .after (.looking l.paths) (by simp [step, hfile]) (by simp) hlooking

/-- **The steps of a load.** Steps that nothing comes between leave the store as the load does, and
the answer of the load is the catalog that is then in the store. -/
theorem completes_load (l : CatalogLoader) (fs : FileSystem) (clock : Binary64) (now : Timestamp)
    (s : CatalogStore) :
    Completes l now ⟨fs, clock, s, .idle⟩ ⟨fs, clock, (l.load fs clock now s).2, .idle⟩ ∧
      (l.load fs clock now s).1 = (l.load fs clock now s).2.get? := by
  have hreload : (l.reload fs clock now s).1 = (l.reload fs clock now s).2.get? := by
    unfold reload
    split <;> rfl
  have hlooking := completes_looking l fs clock now s l.paths
  cases hget : s.get? with
  | none =>
    rw [load_of_get?_eq_none hget]
    exact ⟨.after (.looking l.paths) (by simp [step, beginning, hget]) (by simp) hlooking, hreload⟩
  | some c =>
    cases hfresh : s.isFresh clock l.ttl with
    | true =>
      rw [load_of_isFresh l fs now hfresh]
      exact ⟨.of_step (by simp [step, beginning, hget, hfresh]) rfl, rfl⟩
    | false =>
      cases hsource : s.source? with
      | none =>
        have hchanged : isUnchanged fs s = false := by simp [isUnchanged, hsource]
        rw [load_of_changed hfresh hchanged]
        refine ⟨?_, hreload⟩
        exact .after (.looking l.paths) (by simp [step, beginning, hget, hfresh, hsource]) (by simp)
          hlooking
      | some p =>
        have hchecking := completes_checking l fs clock now c hsource
        have hbegin : step l now ⟨fs, clock, s, .idle⟩ = ⟨fs, clock, s, .checking p c⟩ := by
          simp [step, beginning, hget, hfresh, hsource]
        by_cases hunchanged : isUnchanged fs s = true
        · rw [if_pos hunchanged] at hchecking
          rw [load_of_isUnchanged hfresh hunchanged hget, hsource]
          exact ⟨.after _ hbegin (by simp) hchecking, rfl⟩
        · rw [if_neg hunchanged] at hchecking
          rw [load_of_changed hfresh (Bool.eq_false_iff.mpr hunchanged)]
          exact ⟨.after _ hbegin (by simp) hchecking, hreload⟩

/-! ### Runs -/

/-- What happens while a loader is used, with the machine that it happens to. -/
inductive Event where
  | step (before : Machine)
  | change (before : Machine) (files : FileSystem)
  | tick (before : Machine) (clock : Binary64)

/-- The machine before an event. -/
def Event.before : Event → Machine
  | .step before => before
  | .change before _ => before
  | .tick before _ => before

/-- The machines of a run, the last one first. -/
def machines (events : List Event) (m : Machine) : List Machine := m :: events.map (·.before)

/-- The trees of a run, the last one first. -/
def trees (events : List Event) (m : Machine) : List FileSystem :=
  (machines events m).map (·.files)

/-- What an event leads to: the loader makes a step, a file changes, or time passes. -/
inductive Happens (l : CatalogLoader) (trees : List FileSystem) : Event → Machine → Prop where
  | step {m : Machine} (now : Timestamp) : Happens l trees (.step m) (m.step l now)
  | change {m : Machine} {files : FileSystem} : Change trees m.files files →
    Happens l trees (.change m files) { m with files }
  | tick {m : Machine} (clock : Binary64) : Happens l trees (.tick m clock) { m with clock }

/-- How a machine can come about from an empty store, with what has happened, the last event first.
Files may change and time may pass before every step. -/
inductive Run (l : CatalogLoader) : List Event → Machine → Prop where
  | start (files : FileSystem) (clock : Binary64) : Run l [] ⟨files, clock, .empty, .idle⟩
  | next {events : List Event} {event : Event} {m m' : Machine} : Run l events m →
    event.before = m → Happens l (trees events m) event m' → Run l (event :: events) m'

/-- If the file of the current catalog has the time that is known of it, it gives the catalog. -/
def HoldsCurrent (m : Machine) : Prop :=
  isUnchanged m.files m.store = true →
    ∃ source c, m.store.source? = some source ∧ m.store.get? = some c ∧ Holds m.files source c

/-- A catalog is taken in only with the time of a file that gives it. -/
def Event.TakesCurrent : Event → Prop
  | .step before => ∀ p c, before.phase = .taking p c → Vouches before.files p c
  | _ => True

/-- A file is left alone between the step that gets its catalog and the one that takes its time. -/
def Event.IsCalm : Event → Prop
  | .change before files =>
    ∀ p c, before.phase = .taking p c → files.find p = before.files.find p
  | _ => True

/-- What a load has got so far: the catalog that it checks is that of the store, and the one that it
is about to take in is given by its file. -/
def IsPrepared (m : Machine) : Prop :=
  match m.phase with
  | .checking p c | .comparing p c => m.store.source? = some p ∧ m.store.get? = some c
  | .taking p c => Vouches m.files p c
  | _ => True

/-! ### What a step keeps -/

variable {events : List Event} {event : Event} {trees : List FileSystem}

theorem files_step (l : CatalogLoader) (now : Timestamp) (m : Machine) :
    (m.step l now).files = m.files := by
  unfold step
  split
  · rfl
  · rfl
  · split <;> rfl
  · rfl
  · rfl
  · split <;> rfl
  · rfl

/-- Only what is taken in comes into the store. -/
theorem store_step (l : CatalogLoader) (now : Timestamp) (m : Machine) :
    (m.step l now).store = m.store ∨ (m.step l now).store = .empty ∨
      ∃ p c, m.phase = .taking p c ∧
        (m.step l now).store = m.store.replace m.files m.clock c (some p) := by
  unfold step
  split
  · exact .inl rfl
  · exact .inl rfl
  · split
    · exact .inl rfl
    · exact .inl rfl
  · exact .inr (.inl rfl)
  · exact .inl rfl
  · split
    · exact .inl rfl
    · exact .inl rfl
  · next p c hphase => exact .inr (.inr ⟨p, c, hphase, rfl⟩)

/-- A step prepares the next one. -/
theorem IsPrepared.step (h : m.IsPrepared) (hcurrent : m.HoldsCurrent) (l : CatalogLoader)
    (now : Timestamp) : (m.step l now).IsPrepared := by
  obtain ⟨files, clock, store, phase⟩ := m
  cases phase with
  | idle =>
    cases hget : store.get? with
    | none => simp [Machine.step, beginning, hget, IsPrepared]
    | some c =>
      cases hsource : store.source? <;>
        by_cases hfresh : store.isFresh clock l.ttl = true <;>
          simp [Machine.step, beginning, hget, hsource, hfresh, IsPrepared]
  | checking p c =>
    by_cases hfile : files.isFile p = true
    · simpa [Machine.step, hfile, IsPrepared] using h
    · simp [Machine.step, hfile, IsPrepared]
  | comparing p c =>
    obtain ⟨hsource, hget⟩ := h
    rw [step_comparing l files clock now c hsource]
    by_cases hunchanged : isUnchanged files store = true
    · rw [if_pos hunchanged]
      obtain ⟨source, c', hsource', hget', hholds⟩ := hcurrent hunchanged
      obtain rfl : p = source := Option.some.inj (hsource.symm.trans hsource')
      obtain rfl : c = c' := Option.some.inj (hget.symm.trans hget')
      exact fun _ _ _ ↦ hholds
    · rw [if_neg hunchanged]
      trivial
  | looking rest =>
    cases rest with
    | nil => trivial
    | cons p rest =>
      by_cases hfile : files.isFile p = true <;> simp [Machine.step, hfile, IsPrepared]
  | reading p rest =>
    cases hread : read? files now p with
    | none => simp [Machine.step, hread, IsPrepared]
    | some c =>
      simp only [Machine.step, hread, IsPrepared]
      exact fun _ _ _ ↦ ⟨now, hread⟩
  | taking p c => trivial

/-- A change that leaves the file of a load alone leaves the load prepared. -/
theorem IsPrepared.change (h : m.IsPrepared) (hcalm : Event.IsCalm (.change m files)) :
    IsPrepared { m with files } := by
  obtain ⟨before, clock, store, phase⟩ := m
  cases phase with
  | taking p c =>
    have hfind : files.find p = before.find p := hcalm p c rfl
    intro time htime hnumber
    obtain ⟨content, hfile⟩ := modified?_eq_some_iff.mp htime
    have hfile' := hfind ▸ hfile
    exact (h time (modified?_eq_some_iff.mpr ⟨content, hfile'⟩) hnumber).of_content hfile' hfile
  | idle => trivial
  | checking p c => exact h
  | comparing p c => exact h
  | looking rest => trivial
  | reading p rest => trivial

/-- What has just been taken in is unchanged, so it is current only if its file gives it. -/
theorem vouches_of_holdsCurrent (hphase : m.phase = .taking p c)
    (hcurrent : (m.step l now).HoldsCurrent) : Vouches m.files p c := by
  intro time htime hnumber
  have hstep : m.step l now =
      { m with store := m.store.replace m.files m.clock c (some p), phase := .idle } := by
    rw [step, hphase]
  rw [hstep] at hcurrent
  obtain ⟨source, c', hsource, hget, hholds⟩ := hcurrent <| isUnchanged_iff.mpr
    ⟨p, time, time, rfl, htime, htime, Binary64.sameValue_self hnumber⟩
  cases hsource
  cases hget
  exact hholds

namespace Happens

/-- Times tell the contents of files after an event if they did before. -/
theorem timesTell (h : Happens l trees event m) (htell : TimesTell trees)
    (hbefore : event.before.files ∈ trees) : TimesTell (m.files :: trees) := by
  cases h with
  | step now =>
    apply htell.mono
    simpa [files_step, Event.before] using hbefore
  | change hchange => exact htell.cons hbefore hchange
  | tick clock =>
    apply htell.mono
    simpa [Event.before] using hbefore

/-- The store stays vouched for if what is taken in comes with the time of its file. -/
theorem isVouched (h : Happens l trees event m) (htakes : event.TakesCurrent)
    (hbefore : event.before.files ∈ trees) (hvouched : IsVouched trees event.before.store) :
    IsVouched trees m.store := by
  cases h with
  | @step before now =>
    rcases store_step l now before with hstore | hstore | ⟨p, c, hphase, hstore⟩
    · rwa [hstore]
    · rw [hstore]
      rintro held ⟨⟩
    · rw [hstore]
      rintro held ⟨⟩
      exact ⟨p, rfl, before.files, hbefore, rfl, htakes p c hphase⟩
  | change _ => exact hvouched
  | tick clock => exact hvouched

/-- A load that is prepared takes in what its file gives. -/
theorem takesCurrent (h : Happens l trees event m) (hprepared : event.before.IsPrepared) :
    event.TakesCurrent := by
  cases h with
  | step now =>
    intro p c hphase
    rwa [IsPrepared, Event.before, hphase] at hprepared
  | change _ => trivial
  | tick clock => trivial

/-- A load stays prepared as long as its file is left alone. -/
theorem isPrepared (h : Happens l trees event m) (hcalm : event.IsCalm)
    (hprepared : event.before.IsPrepared) (hcurrent : event.before.HoldsCurrent) :
    m.IsPrepared := by
  cases h with
  | step now => exact hprepared.step hcurrent l now
  | change _ => exact hprepared.change hcalm
  | tick clock => exact hprepared

/-- What is current right after it was taken in came with the time of a file that gave it. -/
theorem takesCurrent_of_holdsCurrent (h : Happens l trees event m)
    (hcurrent : m.phase = .idle → m.HoldsCurrent) : event.TakesCurrent := by
  cases h with
  | step now =>
    intro p c hphase
    apply vouches_of_holdsCurrent hphase (hcurrent _)
    rw [Machine.step, hphase]
  | change _ => trivial
  | tick clock => trivial

end Happens

/-! ### What a run keeps -/

namespace Run

/-- Times tell the contents of the files that there have been. -/
theorem timesTell (h : Run l events m) : TimesTell (Machine.trees events m) := by
  induction h with
  | start files clock => exact .single files
  | next hrun hbefore hhappens ih =>
    subst hbefore
    exact hhappens.timesTell ih List.mem_cons_self

/-- The store is vouched for as long as what was taken in came with the time of its file. -/
theorem isVouched (h : Run l events m) (htakes : ∀ event ∈ events, event.TakesCurrent) :
    IsVouched (Machine.trees events m) m.store := by
  induction h with
  | start files clock =>
    rintro held ⟨⟩
  | next hrun hbefore hhappens ih =>
    subst hbefore
    rw [List.forall_mem_cons] at htakes
    have hvouched := hhappens.isVouched htakes.1 List.mem_cons_self (ih htakes.2)
    exact hvouched.mono fun fs hfs ↦ List.mem_cons_of_mem _ hfs

/-- Then the machine holds what its unchanged file gives. -/
theorem holdsCurrent (h : Run l events m) (htakes : ∀ event ∈ events, event.TakesCurrent) :
    m.HoldsCurrent :=
  (h.isVouched htakes).holds h.timesTell List.mem_cons_self

/-- And so did all machines before it. -/
theorem forall_holdsCurrent (h : Run l events m) (htakes : ∀ event ∈ events, event.TakesCurrent) :
    ∀ state ∈ machines events m, state.HoldsCurrent := by
  induction h with
  | start files clock =>
    simpa [machines] using (Run.start (l := l) files clock).holdsCurrent htakes
  | next hrun hbefore hhappens ih =>
    have hlast := (hrun.next hbefore hhappens).holdsCurrent htakes
    subst hbefore
    rw [List.forall_mem_cons] at htakes
    exact List.forall_mem_cons.mpr ⟨hlast, ih htakes.2⟩

/-- As long as files are left alone when it matters, what is taken in comes with the time of its
file. -/
theorem takesCurrent_of_isCalm (h : Run l events m) (hcalm : ∀ event ∈ events, event.IsCalm) :
    (∀ event ∈ events, event.TakesCurrent) ∧ m.IsPrepared := by
  induction h with
  | start files clock => exact ⟨by simp, trivial⟩
  | next hrun hbefore hhappens ih =>
    rw [List.forall_mem_cons] at hcalm ⊢
    obtain ⟨htakes, hprepared⟩ := ih hcalm.2
    have hcurrent := hrun.holdsCurrent htakes
    subst hbefore
    exact ⟨⟨hhappens.takesCurrent hprepared, htakes⟩,
      hhappens.isPrepared hcalm.1 hprepared hcurrent⟩

/-- If the store is current whenever no load is in progress, what was taken in came with the time of
its file. -/
theorem takesCurrent_of_holdsCurrent (h : Run l events m)
    (hcurrent : ∀ state ∈ machines events m, state.phase = .idle → state.HoldsCurrent) :
    ∀ event ∈ events, event.TakesCurrent := by
  induction h with
  | start files clock => simp
  | next hrun hbefore hhappens ih =>
    subst hbefore
    obtain ⟨hlast, hearlier⟩ := List.forall_mem_cons.mp hcurrent
    exact List.forall_mem_cons.mpr ⟨hhappens.takesCurrent_of_holdsCurrent hlast, ih hearlier⟩

/-- **No update is lost** between the loads of a run exactly if every catalog was taken in with the
time of a file that gave it; and this is so if no file was replaced between the step that got its
catalog and the one that took its time. -/
theorem holdsCurrent_iff (h : Run l events m) :
    ((∀ state ∈ machines events m, state.phase = .idle → state.HoldsCurrent) ↔
      ∀ event ∈ events, event.TakesCurrent) ∧
    ((∀ event ∈ events, event.IsCalm) →
      ∀ state ∈ machines events m, state.phase = .idle → state.HoldsCurrent) := by
  constructor
  · constructor
    · exact h.takesCurrent_of_holdsCurrent
    · exact fun htakes state hstate _ ↦ h.forall_holdsCurrent htakes state hstate
  · intro hcalm state hstate _
    exact h.forall_holdsCurrent (h.takesCurrent_of_isCalm hcalm).1 state hstate

/-! ### A file that is written while it is loaded -/

theorem step (h : Run l events m) (now : Timestamp) (hstep : m.step l now = m') :
    Run l (.step m :: events) m' := by
  subst hstep
  exact h.next rfl (.step now)

theorem change (h : Run l events m) (hchange : Change (Machine.trees events m) m.files files) :
    Run l (.change m files :: events) { m with files } :=
  h.next rfl (.change hchange)

/-- A loader with one path that serves a catalog for five seconds. -/
def onePath : CatalogLoader := ⟨[⟨"/", ["b"]⟩], .ofInt 5⟩

/-- A loader that stands in a phase of its first load. -/
private def firstLoad (files : FileSystem) (phase : Phase) : Machine :=
  ⟨files, .ofInt 0, .empty, phase⟩

private theorem isFile_secondOnly : secondOnly.isFile ⟨"/", ["b"]⟩ = true := by
  decide +kernel

private theorem size_secondOnly :
    (read? secondOnly .secondOfJanuary ⟨"/", ["b"]⟩).map (·.size) = some 0 := by
  decide +kernel

private theorem size_withOneStory :
    (read? (withOneStory "b") .secondOfJanuary ⟨"/", ["b"]⟩).map (·.size) = some 1 := by
  decide +kernel

/-- The load has seen that the file is there. -/
private theorem run_reading : Run onePath
    [.step (firstLoad secondOnly (.looking onePath.paths)), .step (firstLoad secondOnly .idle)]
    (firstLoad secondOnly (.reading ⟨"/", ["b"]⟩ [])) := by
  have hidle : Run onePath [] (firstLoad secondOnly .idle) := .start secondOnly (.ofInt 0)
  have hlooking : Run onePath [.step (firstLoad secondOnly .idle)]
      (firstLoad secondOnly (.looking onePath.paths)) := hidle.step .secondOfJanuary rfl
  apply hlooking.step .secondOfJanuary
  simp [Machine.step, firstLoad, onePath, isFile_secondOnly]

/-- A catalog that is read is taken in next. -/
private theorem step_reading {size : Nat}
    (h : (read? fs .secondOfJanuary ⟨"/", ["b"]⟩).map (·.size) = some size) :
    ∃ c, c.size = size ∧
      (firstLoad fs (.reading ⟨"/", ["b"]⟩ [])).step onePath .secondOfJanuary =
        firstLoad fs (.taking ⟨"/", ["b"]⟩ c) := by
  obtain ⟨c, hread, hsize⟩ := Option.map_eq_some_iff.mp h
  exact ⟨c, hsize, by simp [Machine.step, firstLoad, hread]⟩

/-- The load has taken in a catalog after a story was written. -/
def loaded (c : Catalog) : Machine :=
  ⟨withOneStory "b", .ofInt 0,
    CatalogStore.empty.replace (withOneStory "b") (.ofInt 0) c (some ⟨"/", ["b"]⟩), .idle⟩

private theorem isUnchanged_loaded (c : Catalog) :
    isUnchanged (loaded c).files (loaded c).store = true := by
  have htime : (withOneStory "b").modified? ⟨"/", ["b"]⟩ = some (.ofInt 1) := by decide +kernel
  exact isUnchanged_iff.mpr ⟨_, _, _, rfl, htime, htime, by decide +kernel⟩

/-- The story is written before the file is read. -/
private theorem exists_calm_run : ∃ events c, Run onePath events (loaded c) ∧
    ∀ event ∈ events, event.IsCalm := by
  obtain ⟨c, -, hreading⟩ := step_reading size_withOneStory
  have hchange : Change [secondOnly, secondOnly, secondOnly] secondOnly (withOneStory "b") :=
    change_secondOnly (.inr rfl) (by simp)
  have htaking := (run_reading.change hchange).step _ hreading
  refine ⟨_, c, htaking.step .secondOfJanuary rfl, ?_⟩
  simp [Event.IsCalm, firstLoad]

/-- The story is written after the file was read, and before its time is taken. -/
private theorem exists_replacing_run : ∃ events c, Run onePath events (loaded c) ∧ c.size = 0 := by
  obtain ⟨c, hsize, hreading⟩ := step_reading size_secondOnly
  have hchange : Change [secondOnly, secondOnly, secondOnly, secondOnly] secondOnly
      (withOneStory "b") := change_secondOnly (.inr rfl) (by simp)
  have hwritten := (run_reading.step _ hreading).change hchange
  exact ⟨_, c, hwritten.step .secondOfJanuary rfl, hsize⟩

/-- A file that is written before it is read is loaded as it is. -/
theorem holdsCurrent_rewritten : ∃ events c, Run onePath events (loaded c) ∧
    (∀ event ∈ events, event.IsCalm) ∧
    ((∀ state ∈ machines events (loaded c), state.phase = .idle → state.HoldsCurrent) ↔
      ∀ event ∈ events, event.TakesCurrent) ∧
    (∀ state ∈ machines events (loaded c), state.phase = .idle → state.HoldsCurrent) ∧
    isUnchanged (loaded c).files (loaded c).store = true := by
  obtain ⟨events, c, hrun, hcalm⟩ := exists_calm_run
  obtain ⟨hiff, hcurrent⟩ := holdsCurrent_iff hrun
  exact ⟨events, c, hrun, hcalm, hiff, hcurrent hcalm, isUnchanged_loaded c⟩

/-- A file that is written after it was read, and before its time is taken, is taken for unchanged:
the catalog that it gave before is served after the time to live too. -/
theorem not_holdsCurrent_replaced : ∃ events c, Run onePath events (loaded c) ∧
    (loaded c).phase = .idle ∧ ¬ (loaded c).HoldsCurrent ∧
    (onePath.load (loaded c).files (.ofInt 10) .secondOfJanuary (loaded c).store).1 = some c ∧
    ¬ Holds (loaded c).files ⟨"/", ["b"]⟩ c := by
  obtain ⟨events, c, hrun, hsize⟩ := exists_replacing_run
  have hgone : ¬ Holds (loaded c).files ⟨"/", ["b"]⟩ c := by
    intro hholds
    have hone := size_withOneStory.symm.trans (hholds.size_eq .secondOfJanuary)
    rw [hsize] at hone
    cases hone
  refine ⟨events, c, hrun, rfl, ?_, ?_, hgone⟩
  · intro hcurrent
    obtain ⟨source, c', hsource, hget, hholds⟩ := hcurrent (isUnchanged_loaded c)
    cases hsource
    cases hget
    exact hgone hholds
  · have hstale : (loaded c).store.isFresh (.ofInt 10) onePath.ttl = false := by
      change Binary64.lt ((Binary64.ofInt 10).sub (.ofInt 0)) (.ofInt 5) = false
      decide +kernel
    rw [load_of_isUnchanged hstale (isUnchanged_loaded c) rfl]

end Run

end Machine

end CatalogLoader

end StoryCatalog
