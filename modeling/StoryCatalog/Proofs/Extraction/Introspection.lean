import StoryCatalog.Extraction.Strategy
import StoryCatalog.Proofs.Catalog.Records
import StoryCatalog.Proofs.Session.Sound

/-!
# Introspection beside the index

Introspecting the stories of an index gives a catalog that refines the one of the index alone: the
same stories in the same order, each with the same names; a story that could not be introspected
stays as the index has it. `Introspects` tells what comes of visiting the stories one after another,
`ComesTo` of opening the manager before, and `Visits` of closing the browser after it; `Course` lists
the ways in which all of it may end.
-/

namespace StoryCatalog

open Work

/-! ### Records -/

/-- Two records have the same identifier, and tell the same names and place of a story. -/
structure StoryRecord.AgreesWith (r r' : StoryRecord) : Prop where
  id : r.id = r'.id
  title : r.title = r'.title
  name : r.name = r'.name
  importPath : r.importPath = r'.importPath
  type : r.type = r'.type

namespace IndexEntry

/-- The record of an entry under a key, with what came of introspecting its story. -/
def recordOf (entry : IndexEntry) (key : Text) :
    Except ExtractionError (Fields Json) → Except TooManyDigits StoryRecord
  | .error _ => .ok (entry.toRecord key)
  | .ok fields => entry.toRuntimeRecord key (.object fields)

/-- What a running story holds does not change what its entry says. -/
theorem agreesWith_of_recordOf {entry : IndexEntry} {key : Text}
    {answer : Except ExtractionError (Fields Json)} {r : StoryRecord}
    (h : entry.recordOf key answer = .ok r) : r.AgreesWith (entry.toRecord key) := by
  cases answer with
  | error error =>
    cases h
    exact ⟨rfl, rfl, rfl, rfl, rfl⟩
  | ok fields =>
    rw [recordOf, toRuntimeRecord] at h
    cases htags : entry.runtimeTags ((Json.object fields).field "tags") with
    | error e => rw [htags] at h; cases h
    | ok tags =>
      rw [htags] at h
      cases h
      exact ⟨rfl, rfl, rfl, rfl, rfl⟩

end IndexEntry

/-- A story that was visited: its entry, what came of introspecting it, and the record of both. -/
structure Visit where
  key : Text
  entry : IndexEntry
  answer : Except ExtractionError (Fields Json)
  record : StoryRecord
  record_eq : entry.recordOf key answer = .ok record

namespace Visit

/-- The identifier of the story. -/
def id (v : Visit) : Text := v.entry.storyId v.key

/-- The entry under its key in the index. -/
def source (v : Visit) : Text × IndexEntry := (v.key, v.entry)

/-- The record of the entry alone. -/
def basic (v : Visit) : StoryRecord := v.entry.toRecord v.key

/-- Whether the story could be introspected. -/
def isDeep (v : Visit) : Bool := v.answer.isOk

theorem agreesWith_basic (v : Visit) : v.record.AgreesWith v.basic :=
  IndexEntry.agreesWith_of_recordOf v.record_eq

@[simp] theorem id_record (v : Visit) : v.record.id = v.id := v.agreesWith_basic.id

@[simp] theorem id_basic (v : Visit) : v.basic.id = v.id := rfl

/-- Without anything of the running story, the record is that of the entry alone. -/
theorem record_of_error {v : Visit} {error : ExtractionError} (h : v.answer = .error error) :
    v.record = v.basic := by
  have hrecord := v.record_eq
  rw [h] at hrecord
  exact (Except.ok.inj hrecord).symm

end Visit

/-! ### Catalogs -/

/-- A catalog of visited stories refines the catalog of the index alone: it has the same keys in the
same order, records that agree, and the index's own record where the last visit of a story
failed. -/
structure Catalog.Refines (deep : Catalog) (visits : List Visit) (basic : Catalog) : Prop where
  keys_eq : deep.stories.keys = basic.stories.keys
  agrees : ∀ id, Option.Rel StoryRecord.AgreesWith (deep.stories.get? id) (basic.stories.get? id)
  eq_of_failed : ∀ id v error, visits.reverse.find? (·.id == id) = some v →
    v.answer = .error error → deep.stories.get? id = basic.stories.get? id

/-- Under an identifier stands the record of the last visit of its story. -/
theorem Visit.get?_ofRecords {f : Visit → StoryRecord} (hid : ∀ v, (f v).id = v.id)
    (source : Provenance) (now : Timestamp) (visits : List Visit) (id : Text) :
    (Catalog.ofRecords source now (visits.map f)).stories.get? id =
      (visits.reverse.find? (·.id == id)).map f := by
  rw [Catalog.get?_ofRecords, ← List.map_reverse, List.find?_map]
  congr 2
  funext v
  exact congrArg (· == id) (hid v)

theorem Catalog.refines_of_visits (visits : List Visit) (source source' : Provenance)
    (now now' : Timestamp) :
    (ofRecords source now (visits.map (·.record))).Refines visits
      (.ofRecords source' now' (visits.map (·.basic))) := by
  constructor
  · rw [keys_ofRecords, keys_ofRecords, List.map_map, List.map_map]
    congr 1
    apply List.map_congr_left
    intro v _
    exact v.id_record
  · intro id
    rw [Visit.get?_ofRecords Visit.id_record, Visit.get?_ofRecords Visit.id_basic]
    cases visits.reverse.find? (·.id == id) with
    | none => exact .none
    | some v => exact .some v.agreesWith_basic
  · intro id v error hlast hfailed
    rw [Visit.get?_ofRecords Visit.id_record, Visit.get?_ofRecords Visit.id_basic, hlast,
      Option.map_some, Option.map_some, Visit.record_of_error hfailed]

/-! ### Visiting stories -/

/-- What comes of introspecting the stories of entries one after another, each in the session that
the one before it leaves. It ends before all are visited if introspecting is interrupted, or if the
tags of a story cannot be written as texts. -/
inductive Introspects (i : Introspector) :
    Session → List (Text × IndexEntry) → Except Interruption (List Visit) → Session → Prop
  | nil (s : Session) : Introspects i s [] (.ok []) s
  | visit (v : Visit) {s s' s'' : Session} {rest : List (Text × IndexEntry)}
    {result : Except Interruption (List Visit)}
    (hanswer : (i.introspect v.id).perform s = (.ok v.answer, s'))
    (hrest : Introspects i s' rest result s'') :
    Introspects i s (v.source :: rest) (result.map (v :: ·)) s''
  | interrupted {s s' : Session} {key : Text} {entry : IndexEntry} {e : Interruption}
    (h : (i.introspect (entry.storyId key)).perform s = (.error e, s'))
    (rest : List (Text × IndexEntry)) :
    Introspects i s ((key, entry) :: rest) (.error e) s'
  | unwritable {s s' : Session} {key : Text} {entry : IndexEntry}
    {answer : Except ExtractionError (Fields Json)}
    (hanswer : (i.introspect (entry.storyId key)).perform s = (.ok answer, s'))
    (hrecord : entry.recordOf key answer = .error .tooManyDigits)
    (rest : List (Text × IndexEntry)) :
    Introspects i s ((key, entry) :: rest) (.error (.failed .tooManyDigits)) s'

namespace Introspects

variable {i : Introspector} {s s' : Session} {entries : List (Text × IndexEntry)}
  {result : Except Interruption (List Visit)}

/-- Something comes of every list of entries. -/
theorem exists_result (i : Introspector) (s : Session) (entries : List (Text × IndexEntry)) :
    ∃ result s', Introspects i s entries result s' := by
  induction entries generalizing s with
  | nil => exact ⟨_, _, .nil s⟩
  | cons source rest ih =>
    obtain ⟨key, entry⟩ := source
    rcases hanswer : (i.introspect (entry.storyId key)).perform s with ⟨answer | answer, s'⟩
    · exact ⟨_, _, .interrupted hanswer rest⟩
    · cases hrecord : entry.recordOf key answer with
      | error e => exact ⟨_, _, .unwritable hanswer hrecord rest⟩
      | ok record =>
        obtain ⟨result, s'', hrest⟩ := ih s'
        exact ⟨_, _, .visit ⟨key, entry, answer, record, hrecord⟩ hanswer hrest⟩

theorem eq_nil_of_nil {visits : List Visit} (h : Introspects i s [] (.ok visits) s') :
    visits = [] := by
  cases h
  rfl

/-- If all of some entries are visited, the first is, and the others in the session it leaves. -/
theorem exists_of_cons {key : Text} {entry : IndexEntry} {visits : List Visit}
    (h : Introspects i s ((key, entry) :: entries) (.ok visits) s') :
    ∃ v later, visits = v :: later ∧ v.key = key ∧ v.entry = entry ∧
      ((i.introspect (entry.storyId key)).perform s).1 = .ok v.answer ∧
      Introspects i ((i.introspect (entry.storyId key)).perform s).2 entries (.ok later) s' := by
  generalize hentries : (key, entry) :: entries = all at h
  generalize hresult : (Except.ok visits : Except Interruption (List Visit)) = result at h
  cases h with
  | nil => cases hentries
  | @visit v _ _ _ _ result hanswer hrest =>
    cases hentries
    cases result with
    | error e => cases hresult
    | ok later =>
      cases hresult
      rw [Visit.id] at hanswer
      refine ⟨v, later, rfl, rfl, rfl, ?_, ?_⟩
      · rw [hanswer]
      · rwa [hanswer]
  | interrupted h => cases hresult
  | unwritable hanswer hrecord => cases hresult

/-- All entries are visited, in their order, unless the visits end before. -/
theorem map_source_eq {visits : List Visit} (h : Introspects i s entries (.ok visits) s') :
    visits.map (·.source) = entries := by
  induction entries generalizing s visits with
  | nil =>
    rw [h.eq_nil_of_nil]
    rfl
  | cons source rest ih =>
    obtain ⟨key, entry⟩ := source
    obtain ⟨v, later, rfl, rfl, rfl, -, hlater⟩ := h.exists_of_cons
    rw [List.map_cons, ih hlater]
    rfl

private theorem perform_introspectEntry {key : Text} {entry : IndexEntry}
    {answer : Except ExtractionError (Fields Json)}
    (h : (i.introspect (entry.storyId key)).perform s = (.ok answer, s')) :
    (Strategy.introspectEntry i key entry).perform s =
      (match entry.recordOf key answer with
        | .ok record => .ok (record, answer.isOk)
        | .error _ => .error (.failed .tooManyDigits), s') := by
  refine (perform_bind_ok h).trans ?_
  cases answer with
  | error error => rfl
  | ok fields =>
    dsimp only [IndexEntry.recordOf]
    cases entry.toRuntimeRecord key (.object fields) <;> rfl

/-- This is what the strategy does with the stories of an index. -/
theorem perform_eq (h : Introspects i s entries result s') :
    (Strategy.introspectAll i entries).perform s =
      (result.map fun visits ↦ (visits.map (·.record), visits.any (·.isDeep)), s') := by
  induction h with
  | nil s => rfl
  | @visit v s s' s'' rest result hanswer hrest ih =>
    have hentry : (Strategy.introspectEntry i v.key v.entry).perform s =
        (.ok (v.record, v.isDeep), s') := by
      rw [perform_introspectEntry hanswer, v.record_eq, Visit.isDeep]
    refine (perform_bind_ok hentry).trans ?_
    rw [perform_bind]
    dsimp only
    rw [ih]
    cases result <;> rfl
  | interrupted h rest =>
    exact perform_bind_error (perform_bind_error h)
  | unwritable hanswer hrecord rest =>
    have hentry := perform_introspectEntry hanswer
    rw [hrecord] at hentry
    exact perform_bind_error hentry

end Introspects

/-! ### What a page does to a session -/

namespace Introspector

/-- Opening the manager leaves the index alone. -/
theorem liveIndex_openManager (i : Introspector) (s : Session) :
    (i.openManager.perform s).2.liveIndex = s.liveIndex :=
  (i.ensures_openManager (Session.keptByPage_liveIndex _) s rfl).1

/-- Closing the browser comes to something, and leaves the session alone. -/
theorem perform_close (s : Session) : ∃ closed, close.perform s = (closed, s) := by
  unfold close unlessFault
  rw [perform_bind_ok (perform_get s)]
  cases s.page.bind (·.closeFault s.calls) with
  | none => exact ⟨_, rfl⟩
  | some fault => exact ⟨_, rfl⟩

end Introspector

namespace Introspects

variable {i : Introspector} {s s' : Session} {entries : List (Text × IndexEntry)}
  {result : Except Interruption (List Visit)}

/-- Introspecting stories leaves the index alone. -/
theorem liveIndex_eq (h : Introspects i s entries result s') : s'.liveIndex = s.liveIndex := by
  have hkept : ∀ {s s' : Session} {storyId : Text}
      {answer : Except Interruption (Except ExtractionError (Fields Json))},
      (i.introspect storyId).perform s = (answer, s') → s'.liveIndex = s.liveIndex := by
    intro s s' storyId answer hanswer
    have hends := (i.ensures_introspect (Session.keptByPage_liveIndex _) storyId s rfl).1
    rwa [hanswer] at hends
  induction h with
  | nil s => rfl
  | visit v hanswer hrest ih => exact ih.trans (hkept hanswer)
  | interrupted h rest => exact hkept h
  | unwritable hanswer hrecord rest => exact hkept hanswer

/-- A story that could not be introspected failed with an error of its own. -/
theorem exists_introspection {visits : List Visit} (h : Introspects i s entries (.ok visits) s')
    {v : Visit} (hv : v ∈ visits) {error : ExtractionError} (herror : v.answer = .error error) :
    ∃ message, error = .introspection message (some v.id) := by
  induction entries generalizing s visits with
  | nil =>
    rw [h.eq_nil_of_nil] at hv
    cases hv
  | cons source rest ih =>
    obtain ⟨key, entry⟩ := source
    obtain ⟨w, later, rfl, rfl, rfl, hanswer, hlater⟩ := h.exists_of_cons
    rcases List.mem_cons.mp hv with rfl | hv
    · have hends := (i.ensures_introspect (Session.keptByPage_liveIndex _) v.id s rfl).2
      exact (hends v.answer hanswer).2 error herror
    · exact ih hlater hv

end Introspects

/-! ### The strategy -/

namespace Strategy

section Conditions

variable (c : ExtractionContext) (s : Session)

/-- The server gives no index, or one without entries. -/
def LacksIndex : Prop :=
  ∃ found s', c.liveIndex.perform s = (.ok found, s') ∧ ∀ index, found = some index → index.size = 0

/-- The server gives an index with entries. -/
def GivesIndex (index : StoryIndex) (s' : Session) : Prop :=
  c.liveIndex.perform s = (.ok (some index), s') ∧ index.size ≠ 0

/-- With an index given, opening the manager comes to this. -/
def ComesTo (index : StoryIndex) (opened : Except Interruption (Except ExtractionError Unit))
    (s' : Session) : Prop :=
  ∃ given, GivesIndex c s index given ∧ c.introspector.openManager.perform given = (opened, s')

/-- With the manager open, this comes of introspecting the stories of the index, and then of closing
the browser. -/
def Visits (index : StoryIndex) (result : Except Interruption (List Visit))
    (closed : Except Interruption Unit) (s' : Session) : Prop :=
  ∃ opened, ComesTo c s index (.ok (.ok ())) opened ∧
    Introspects c.introspector opened index.all.fields result s' ∧
    Introspector.close.perform s' = (closed, s')

end Conditions

variable {c : ExtractionContext} {s s' : Session} {index : StoryIndex}

theorem perform_of_lacksIndex (h : LacksIndex c s) : ((extractDeep c).perform s).1 = .ok none := by
  obtain ⟨found, s', hfound, hempty⟩ := h
  unfold extractDeep
  rw [perform_bind_ok hfound]
  cases found with
  | none => rfl
  | some index =>
    dsimp only
    rw [if_pos (hempty index rfl)]
    rfl

theorem perform_of_interrupted {e : Interruption} (h : c.liveIndex.perform s = (.error e, s')) :
    ((extractDeep c).perform s).1 = .error e := by
  unfold extractDeep
  rw [perform_bind_error h]

/-- With an index, the work goes on with opening the manager. -/
private theorem perform_of_givesIndex (h : GivesIndex c s index s') :
    (extractDeep c).perform s =
      (do match ← openAndIntrospect c.introspector index.all.fields with
          | some (records, true) =>
            return some (Catalog.ofRecords .runningStorybook (← get).now records)
          | _ => return none : Work (Option Catalog)).perform s' := by
  obtain ⟨hfound, hsize⟩ := h
  unfold extractDeep
  rw [perform_bind_ok hfound]
  exact congrArg (fun work : Work (Option Catalog) ↦ work.perform s') (if_neg hsize)

theorem perform_of_notOpened {e : Interruption} (h : ComesTo c s index (.error e) s') :
    ((extractDeep c).perform s).1 = .error e := by
  obtain ⟨given, hgives, hopen⟩ := h
  have hopens : (openAndIntrospect c.introspector index.all.fields).perform given =
      (.error e, s') := by
    unfold openAndIntrospect
    exact perform_bind_error hopen
  rw [perform_of_givesIndex hgives, perform_bind_error hopens]

theorem perform_of_notLoaded {message : Text} {storyId : Option Text}
    (h : ComesTo c s index (.ok (.error (.introspection message storyId))) s') :
    ((extractDeep c).perform s).1 = .ok none := by
  obtain ⟨given, hgives, hopen⟩ := h
  have hopens : (openAndIntrospect c.introspector index.all.fields).perform given =
      (.ok none, s') := by
    unfold openAndIntrospect
    rw [perform_bind_ok hopen]
    rfl
  rw [perform_of_givesIndex hgives, perform_bind_ok hopens]
  rfl

theorem perform_of_refused {error : ExtractionError}
    (h : ComesTo c s index (.ok (.error error)) s')
    (hother : ∀ message storyId, error ≠ .introspection message storyId) :
    ((extractDeep c).perform s).1 = .error (.failed (.extraction error)) := by
  obtain ⟨given, hgives, hopen⟩ := h
  have hopens : (openAndIntrospect c.introspector index.all.fields).perform given =
      (.error (.failed (.extraction error)), s') := by
    unfold openAndIntrospect
    rw [perform_bind_ok hopen]
    cases error with
    | introspection message storyId => exact absurd rfl (hother message storyId)
    | _ => rfl
  rw [perform_of_givesIndex hgives, perform_bind_error hopens]

/-- What comes of visiting the stories stands, unless the browser cannot be closed. -/
theorem perform_of_visits {result : Except Interruption (List Visit)}
    {closed : Except Interruption Unit} (h : Visits c s index result closed s') :
    (extractDeep c).perform s =
      (closed.bind fun _ ↦ result.map fun visits ↦
        if visits.any (·.isDeep) then
          some (Catalog.ofRecords .runningStorybook s'.now (visits.map (·.record)))
        else none, s') := by
  obtain ⟨opened, ⟨given, hgives, hopen⟩, hvisits, hclose⟩ := h
  have hopens : (openAndIntrospect c.introspector index.all.fields).perform given =
      (closed.bind fun _ ↦ result.map fun visits ↦
        some (visits.map (·.record), visits.any (·.isDeep)), s') := by
    unfold openAndIntrospect
    rw [perform_bind_ok hopen, perform_bind, perform_finally, hvisits.perform_eq, hclose]
    cases closed <;> cases result <;> rfl
  rw [perform_of_givesIndex hgives, perform_bind, hopens]
  cases closed with
  | error e => rfl
  | ok _ =>
    cases result with
    | error e => rfl
    | ok visits =>
      simp only [Except.map, Except.bind]
      cases visits.any (·.isDeep) <;> rfl

/-- The courses that the work can take, each with what it comes to. -/
inductive Course (c : ExtractionContext) (s : Session) :
    Except Interruption (Option Catalog) → Prop where
  | lacksIndex (h : LacksIndex c s) : Course c s (.ok none)
  | interrupted {e : Interruption} {s' : Session} (h : c.liveIndex.perform s = (.error e, s')) :
    Course c s (.error e)
  | notOpened {index : StoryIndex} {e : Interruption} {s' : Session}
    (h : ComesTo c s index (.error e) s') : Course c s (.error e)
  | notLoaded {index : StoryIndex} {message : Text} {storyId : Option Text} {s' : Session}
    (h : ComesTo c s index (.ok (.error (.introspection message storyId))) s') :
    Course c s (.ok none)
  | refused {index : StoryIndex} {error : ExtractionError} {s' : Session}
    (h : ComesTo c s index (.ok (.error error)) s')
    (hother : ∀ message storyId, error ≠ .introspection message storyId) :
    Course c s (.error (.failed (.extraction error)))
  | notVisited {index : StoryIndex} {e : Interruption} {s' : Session}
    (h : Visits c s index (.error e) (.ok ()) s') : Course c s (.error e)
  | notClosed {index : StoryIndex} {result : Except Interruption (List Visit)} {e : Interruption}
    {s' : Session} (h : Visits c s index result (.error e) s') : Course c s (.error e)
  | shallow {index : StoryIndex} {visits : List Visit} {s' : Session}
    (h : Visits c s index (.ok visits) (.ok ()) s') (hshallow : visits.any (·.isDeep) = false) :
    Course c s (.ok none)
  | deep {index : StoryIndex} {visits : List Visit} {s' : Session}
    (h : Visits c s index (.ok visits) (.ok ()) s') (hdeep : visits.any (·.isDeep) = true) :
    Course c s
      (.ok (some (Catalog.ofRecords .runningStorybook s'.now (visits.map (·.record)))))

/-- The work takes one of the courses. -/
theorem Course.exists_result (c : ExtractionContext) (s : Session) : ∃ result, Course c s result := by
  rcases hfound : c.liveIndex.perform s with ⟨e | found, given⟩
  · exact ⟨_, .interrupted hfound⟩
  by_cases hempty : ∀ index, found = some index → index.size = 0
  · exact ⟨_, .lacksIndex ⟨found, given, hfound, hempty⟩⟩
  simp only [not_forall] at hempty
  obtain ⟨index, rfl, hsize⟩ := hempty
  rcases hopen : c.introspector.openManager.perform given with ⟨answer, opened⟩
  have hcomes : ComesTo c s index answer opened := ⟨given, ⟨hfound, hsize⟩, hopen⟩
  rcases answer with e | error | _
  · exact ⟨_, .notOpened hcomes⟩
  · cases error with
    | introspection message storyId => exact ⟨_, .notLoaded hcomes⟩
    | _ => exact ⟨_, .refused hcomes (by rintro message storyId ⟨⟩)⟩
  obtain ⟨result, s', hintrospects⟩ :=
    Introspects.exists_result c.introspector opened index.all.fields
  obtain ⟨closed, hclose⟩ := Introspector.perform_close s'
  have hvisits : Visits c s index result closed s' := ⟨opened, hcomes, hintrospects, hclose⟩
  rcases closed with e | _
  · exact ⟨_, .notClosed hvisits⟩
  rcases result with e | visits
  · exact ⟨_, .notVisited hvisits⟩
  cases hdeep : visits.any (·.isDeep) with
  | false => exact ⟨_, .shallow hvisits hdeep⟩
  | true => exact ⟨_, .deep hvisits hdeep⟩

/-- What the work comes to on a course. -/
theorem Course.eq {result : Except Interruption (Option Catalog)} (h : Course c s result) :
    ((extractDeep c).perform s).1 = result := by
  cases h with
  | lacksIndex h => exact perform_of_lacksIndex h
  | interrupted h => exact perform_of_interrupted h
  | notOpened h => exact perform_of_notOpened h
  | notLoaded h => exact perform_of_notLoaded h
  | refused h hother => exact perform_of_refused h hother
  | notVisited h =>
    rw [perform_of_visits h]
    rfl
  | notClosed h =>
    rw [perform_of_visits h]
    rfl
  | shallow h hshallow =>
    rw [perform_of_visits h]
    simp [Except.map, Except.bind, hshallow]
  | deep h hdeep =>
    rw [perform_of_visits h]
    simp [Except.map, Except.bind, hdeep]

/-- The work comes to what a course comes to, and to nothing else. -/
theorem extractDeep_eq_iff {result : Except Interruption (Option Catalog)} :
    ((extractDeep c).perform s).1 = result ↔ Course c s result := by
  refine ⟨?_, Course.eq⟩
  obtain ⟨result', h⟩ := Course.exists_result c s
  rintro rfl
  rwa [h.eq]

/-- An index that the server gives is known from then on. -/
theorem liveIndex_of_perform (h : c.liveIndex.perform s = (.ok (some index), s')) :
    ∃ url, c.serverUrl = some url ∧ s'.liveIndex = .known (some index) := by
  unfold ExtractionContext.liveIndex at h
  cases hurl : c.serverUrl with
  | none =>
    rw [hurl] at h
    cases h
  | some url =>
    refine ⟨url, rfl, ?_⟩
    rw [hurl] at h
    dsimp only at h
    rw [perform_bind_ok (perform_get s)] at h
    cases hlive : s.liveIndex with
    | known found =>
      rw [hlive] at h
      cases h
      exact hlive
    | unknown =>
      rw [hlive] at h
      dsimp only at h
      rw [perform_bind_ok (perform_modify _ s), perform_bind] at h
      split at h
      · next answer fetched _ =>
        cases answer with
        | error error => cases h
        | ok found =>
          cases h
          rfl
      · cases h

/-- The index stays known while stories are introspected, so the strategy that makes do with it
comes to its catalog. -/
theorem perform_extractBasic_of_visits {result : Except Interruption (List Visit)}
    {closed : Except Interruption Unit} (h : Visits c s index result closed s') :
    (extractBasic c).perform s' =
      (.ok (some (catalogOfIndex .storybookIndex s'.now index)), s') := by
  obtain ⟨opened, ⟨given, ⟨hfound, -⟩, hopen⟩, hvisits, -⟩ := h
  obtain ⟨url, hurl, hknown⟩ := liveIndex_of_perform hfound
  have hkept : opened.liveIndex = given.liveIndex := by
    have hlive := c.introspector.liveIndex_openManager given
    rwa [hopen] at hlive
  have hlive : s'.liveIndex = .known (some index) :=
    hvisits.liveIndex_eq.trans (hkept.trans hknown)
  unfold extractBasic
  rw [perform_bind_ok (c.liveIndex_of_known s' hurl hlive)]
  rfl

private theorem not_isDeep_iff {v : Visit} :
    v.isDeep = false ↔ ∃ error, v.answer = .error error := by
  rw [Visit.isDeep]
  cases v.answer with
  | error error => exact iff_of_true rfl ⟨error, rfl⟩
  | ok fields => exact iff_of_false (by simp [Except.isOk, Except.toBool]) (by simp)

/-- No visited story tells more than the index exactly if every one fails with an error of its
own. -/
private theorem any_isDeep_eq_false_iff {visits : List Visit}
    (h : Introspects c.introspector s index.all.fields (.ok visits) s') :
    visits.any (·.isDeep) = false ↔
      ∀ v ∈ visits, ∃ message, v.answer = .error (.introspection message (some v.id)) := by
  rw [List.any_eq_false]
  refine forall₂_congr fun v hv ↦ ?_
  rw [Bool.not_eq_true, not_isDeep_iff]
  constructor
  · rintro ⟨error, herror⟩
    obtain ⟨message, rfl⟩ := h.exists_introspection hv herror
    exact ⟨message, herror⟩
  · rintro ⟨message, herror⟩
    exact ⟨_, herror⟩

/-- There is no catalog exactly if there is no story, the manager does not load, or every story
fails and the browser is closed. -/
theorem extractDeep_eq_none_iff :
    ((extractDeep c).perform s).1 = .ok none ↔
      LacksIndex c s ∨
      (∃ index message storyId s',
        ComesTo c s index (.ok (.error (.introspection message storyId))) s') ∨
      ∃ index visits s', Visits c s index (.ok visits) (.ok ()) s' ∧
        ∀ v ∈ visits, ∃ message, v.answer = .error (.introspection message (some v.id)) := by
  rw [extractDeep_eq_iff]
  constructor
  · intro h
    cases h with
    | lacksIndex h => exact .inl h
    | notLoaded h => exact .inr (.inl ⟨_, _, _, _, h⟩)
    | shallow h hshallow =>
      refine .inr (.inr ⟨_, _, _, h, ?_⟩)
      obtain ⟨opened, -, hvisits, -⟩ := h
      exact (any_isDeep_eq_false_iff hvisits).mp hshallow
  · rintro (h | ⟨index, message, storyId, s', h⟩ | ⟨index, visits, s', h, hfail⟩)
    · exact .lacksIndex h
    · exact .notLoaded h
    · refine .shallow h ?_
      obtain ⟨opened, -, hvisits, -⟩ := h
      exact (any_isDeep_eq_false_iff hvisits).mpr hfail

/-- The work ends without a result exactly if the index is not awaited, the manager cannot be
opened, the visits end before all stories are visited, or the browser cannot be closed. -/
theorem extractDeep_eq_error_iff {e : Interruption} :
    ((extractDeep c).perform s).1 = .error e ↔
      (∃ s', c.liveIndex.perform s = (.error e, s')) ∨
      (∃ index s', ComesTo c s index (.error e) s') ∨
      (∃ index error s', ComesTo c s index (.ok (.error error)) s' ∧
        (∀ message storyId, error ≠ .introspection message storyId) ∧
        e = .failed (.extraction error)) ∨
      (∃ index s', Visits c s index (.error e) (.ok ()) s') ∨
      ∃ index result s', Visits c s index result (.error e) s' := by
  rw [extractDeep_eq_iff]
  constructor
  · intro h
    cases h with
    | interrupted h => exact .inl ⟨_, h⟩
    | notOpened h => exact .inr (.inl ⟨_, _, h⟩)
    | refused h hother => exact .inr (.inr (.inl ⟨_, _, _, h, hother, rfl⟩))
    | notVisited h => exact .inr (.inr (.inr (.inl ⟨_, _, h⟩)))
    | notClosed h => exact .inr (.inr (.inr (.inr ⟨_, _, _, h⟩)))
  · rintro (⟨s', h⟩ | ⟨index, s', h⟩ | ⟨index, error, s', h, hother, rfl⟩ | ⟨index, s', h⟩ |
      ⟨index, result, s', h⟩)
    · exact .interrupted h
    · exact .notOpened h
    · exact .refused h hother
    · exact .notVisited h
    · exact .notClosed h

/-- A catalog of introspected stories refines the one that the index alone gives. -/
theorem exists_basic_of_extractDeep {deep : Catalog}
    (h : ((extractDeep c).perform s).1 = .ok (some deep)) :
    ∃ index visits s' basic, Visits c s index (.ok visits) (.ok ()) s' ∧
      visits.map (·.source) = index.all.fields ∧
      (extractBasic c).perform s' = (.ok (some basic), s') ∧ deep.Refines visits basic := by
  rw [extractDeep_eq_iff] at h
  cases h with
  | @deep index visits s' h hdeep =>
    have hsource : visits.map (·.source) = index.all.fields := by
      obtain ⟨opened, -, hvisits, -⟩ := h
      exact hvisits.map_source_eq
    refine ⟨index, visits, s', _, h, hsource, perform_extractBasic_of_visits h, ?_⟩
    have hbasic : catalogOfIndex .storybookIndex s'.now index =
        .ofRecords .storybookIndex s'.now (visits.map (·.basic)) := by
      rw [catalogOfIndex, ← hsource, List.map_map]
      rfl
    rw [hbasic]
    exact Catalog.refines_of_visits visits _ _ _ _

/-- Introspecting the stories of a running Storybook comes to no catalog exactly if the index is
missing or empty, the manager does not load, or every story fails. It ends without a result exactly
if the request of the index is interrupted, opening the manager is interrupted or fails otherwise,
the visits end early, or the browser cannot be closed. Otherwise its catalog refines
the one that the strategy for the index alone comes to right after it. -/
theorem extract_runningStorybook_refines (c : ExtractionContext) (s : Session) :
    (((runningStorybook.extract c).perform s).1 = .ok none ↔
      LacksIndex c s ∨
      (∃ index message storyId s',
        ComesTo c s index (.ok (.error (.introspection message storyId))) s') ∨
      ∃ index visits s', Visits c s index (.ok visits) (.ok ()) s' ∧
        ∀ v ∈ visits, ∃ message, v.answer = .error (.introspection message (some v.id))) ∧
    (∀ e, ((runningStorybook.extract c).perform s).1 = .error e ↔
      (∃ s', c.liveIndex.perform s = (.error e, s')) ∨
      (∃ index s', ComesTo c s index (.error e) s') ∨
      (∃ index error s', ComesTo c s index (.ok (.error error)) s' ∧
        (∀ message storyId, error ≠ .introspection message storyId) ∧
        e = .failed (.extraction error)) ∨
      (∃ index s', Visits c s index (.error e) (.ok ()) s') ∨
      ∃ index result s', Visits c s index result (.error e) s') ∧
    ∀ deep, ((runningStorybook.extract c).perform s).1 = .ok (some deep) →
      ∃ index visits s' basic, Visits c s index (.ok visits) (.ok ()) s' ∧
        visits.map (·.source) = index.all.fields ∧
        (storybookIndex.extract c).perform s' = (.ok (some basic), s') ∧
        deep.Refines visits basic :=
  ⟨extractDeep_eq_none_iff, fun _ ↦ extractDeep_eq_error_iff, fun _ ↦ exists_basic_of_extractDeep⟩

/-- A session without a browser, in which an index with one story is known. -/
def withoutBrowser : Session where
  files := ⟨⟨"/", []⟩, []⟩
  now := .secondOfJanuary
  server := .ofServer fun _ _ ↦ .timedOut
  requests := []
  page := none
  calls := []
  liveIndex := .known (some { entries := .ofList [("a--b", { title := "A", name := "B" })] })
  remaining := none

/-- The context of the session. -/
def serverContext : ExtractionContext where
  projectRoot := ⟨"/", []⟩
  sourceDirectory := none
  outputDirectory := none
  serverUrl := some "http://h"
  hasParser := true
  hasBrowser := true
  pageLimit := .int 30
  storyLimit := .int 5
  indexLimit := .int 10
  headless := true
  requiresSource := false

/-- Without a browser there is neither a reason for coming to no catalog, nor a catalog. -/
theorem not_refined_without_browser :
    ¬ (LacksIndex serverContext withoutBrowser ∨
      (∃ index message storyId s', ComesTo serverContext withoutBrowser index
        (.ok (.error (.introspection message storyId))) s') ∨
      ∃ index visits closed s', Visits serverContext withoutBrowser index (.ok visits) closed s' ∧
        ∀ v ∈ visits, ∃ message, v.answer = .error (.introspection message (some v.id))) ∧
      ¬ ∃ found,
        ((runningStorybook.extract serverContext).perform withoutBrowser).1 = .ok found := by
  have hresult : ((extractDeep serverContext).perform withoutBrowser).1 =
      .error (.failed (.extraction (.dependency "browser" Introspector.packages))) := rfl
  have hopened : ∀ {index : StoryIndex} {opened : Except Interruption (Except ExtractionError Unit)}
      {s' : Session}, ComesTo serverContext withoutBrowser index opened s' →
      opened = .ok (.error (.dependency "browser" Introspector.packages)) := by
    rintro index opened s' ⟨given, ⟨hgiven, -⟩, hopen⟩
    have hsame : withoutBrowser = given := congrArg Prod.snd hgiven
    subst hsame
    exact (congrArg Prod.fst hopen).symm
  constructor
  · rintro (h | ⟨index, message, storyId, s', h⟩ | ⟨index, visits, closed, s', ⟨opened, h, -⟩, -⟩)
    · rw [perform_of_lacksIndex h] at hresult
      cases hresult
    · cases hopened h
    · cases hopened h
  · rintro ⟨found, hfound⟩
    have hsame := hresult.symm.trans hfound
    cases hsame

/-- Entries of an index, two of which share an identifier. -/
def sharedIdEntries : List (Text × IndexEntry) :=
  [("a--b", { title := "A", name := "B" }), ("c--d", { title := "C", name := "D" }),
    ("e--f", { id := "a--b", title := "E", name := "F" })]

/-- A session whose index has these entries. Its page knows the first two stories that are visited,
and none after them. -/
def withSharedId : Session :=
  { withoutBrowser with
    page := some {
      launchFault := none
      shows := fun calls ↦ {
        loads := true
        hasPreview := true
        story := fun _ ↦ if calls.length < 6 then .value (.object []) else .fails "gone" }
      delay := fun _ ↦ .ofInt 0
      closeFault := fun _ ↦ none }
    liveIndex := .known (some { entries := .ofList sharedIdEntries }) }

/-- The page answers the first visit of the shared story, and not the second. -/
private theorem isDeep_withSharedId {index : StoryIndex} {visits : List Visit}
    {closed : Except Interruption Unit} {s' : Session}
    (h : Visits serverContext withSharedId index (.ok visits) closed s') :
    visits.map (fun v ↦ (v.id, v.isDeep)) =
      [(("a--b" : Text), true), ("c--d", true), ("a--b", false)] := by
  obtain ⟨opened, ⟨given, ⟨hgiven, -⟩, hopen⟩, hvisits, -⟩ := h
  have hindex : some { entries := .ofList sharedIdEntries } = some index :=
    Except.ok.inj (congrArg Prod.fst hgiven)
  have hsame : withSharedId = given := congrArg Prod.snd hgiven
  have hopened : (serverContext.introspector.openManager.perform given).2 = opened :=
    congrArg Prod.snd hopen
  cases hindex
  subst hsame hopened
  change Introspects _ _ sharedIdEntries _ _ at hvisits
  unfold sharedIdEntries at hvisits
  obtain ⟨first, _, rfl, hkey, hentry, hfirst, hvisits⟩ := hvisits.exists_of_cons
  obtain ⟨second, _, rfl, hkey', hentry', hsecond, hvisits⟩ := hvisits.exists_of_cons
  obtain ⟨third, _, rfl, hkey'', hentry'', hthird, hvisits⟩ := hvisits.exists_of_cons
  obtain rfl := hvisits.eq_nil_of_nil
  have hdeep : ∀ {v : Visit} {result : Except Interruption (Except ExtractionError (Fields Json))},
      result = .ok v.answer → v.isDeep = (result.toOption.map (·.isOk)).getD false := by
    rintro v _ rfl
    rfl
  simp only [List.map_cons, List.map_nil, Visit.id, hkey, hentry, hkey', hentry', hkey'', hentry'',
    hdeep hfirst, hdeep hsecond, hdeep hthird]
  decide +kernel

/-- There is a catalog of its stories, with the index's own record where the last visit failed. -/
theorem refines_withSharedId :
    ∃ deep, ((runningStorybook.extract serverContext).perform withSharedId).1 = .ok (some deep) ∧
      deep.stories.keys = [("a--b" : Text), "c--d"] ∧
      ∃ index visits s' basic, Visits serverContext withSharedId index (.ok visits) (.ok ()) s' ∧
        visits.map (fun v ↦ (v.id, v.isDeep)) =
          [(("a--b" : Text), true), ("c--d", true), ("a--b", false)] ∧
        (storybookIndex.extract serverContext).perform s' = (.ok (some basic), s') ∧
        deep.Refines visits basic ∧ deep.stories.get? "a--b" = basic.stories.get? "a--b" := by
  have hsome : (((runningStorybook.extract serverContext).perform withSharedId).1.toOption.join.map
      (·.stories.keys)) = some [("a--b" : Text), "c--d"] := by decide +kernel
  obtain ⟨deep, hfound, hkeys⟩ := Option.map_eq_some_iff.mp hsome
  have hdeep : ((runningStorybook.extract serverContext).perform withSharedId).1 =
      .ok (some deep) := by
    cases hresult : ((runningStorybook.extract serverContext).perform withSharedId).1 with
    | error e =>
      rw [hresult] at hfound
      cases hfound
    | ok found =>
      rw [hresult] at hfound
      exact congrArg Except.ok hfound
  obtain ⟨index, visits, s', basic, hvisits, -, hbasic, hrefines⟩ :=
    (extract_runningStorybook_refines serverContext withSharedId).2.2 deep hdeep
  have hdeeps := isDeep_withSharedId hvisits
  refine ⟨deep, hdeep, hkeys, index, visits, s', basic, hvisits, hdeeps, hbasic, hrefines, ?_⟩
  obtain ⟨earlier, last, rfl⟩ : ∃ earlier last, visits = earlier ++ [last] := by
    rcases visits.eq_nil_or_concat with rfl | ⟨earlier, last, h⟩
    · cases hdeeps
    · exact ⟨earlier, last, by simpa using h⟩
  have hlast : (last.id, last.isDeep) = (("a--b" : Text), false) := by
    have h := congrArg List.getLast? hdeeps
    rw [List.map_append, List.map_singleton, List.getLast?_concat] at h
    exact Option.some.inj h
  obtain ⟨hid, hfailed⟩ := Prod.mk.inj hlast
  obtain ⟨error, herror⟩ := not_isDeep_iff.mp hfailed
  refine hrefines.eq_of_failed "a--b" last error ?_ herror
  rw [List.reverse_concat, List.find?_cons, hid]
  rfl

end Strategy

end StoryCatalog
