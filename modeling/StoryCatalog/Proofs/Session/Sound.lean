import StoryCatalog.Extraction.Context
import StoryCatalog.Proofs.Session.Work
import StoryCatalog.Proofs.Story.Sources

/-!
# Sessions that stay sound

Fetching an index and introspecting stories change neither the files nor what can be relied on: the
values of the page are of a form that readers give, and every entry of a known index has a type
(`Session.IsSound`). Introspection keeps every invariant in which calls and time have no part
(`Session.KeptByPage`).
-/

namespace StoryCatalog

/-- What the store of a page knows of a story is always of a form that readers give. -/
def LivePage.IsProper (page : LivePage) : Prop :=
  ∀ calls storyId data, (page.shows calls).story storyId = .value data → data.IsProper

/-- A session with given files, whose page and index can be relied on. -/
structure Session.IsSound (fs : FileSystem) (s : Session) : Prop where
  files : s.files = fs
  page : ∀ page, s.page = some page → page.IsProper
  index : ∀ index, s.liveIndex = .known (some index) → index.IsTyped

/-- As long as no index has been asked for, nothing but the page has to be relied on. -/
theorem Session.isSound_of_unknown {s : Session} (hindex : s.liveIndex = .unknown)
    (hpage : ∀ page, s.page = some page → page.IsProper) : s.IsSound s.files where
  files := rfl
  page := hpage
  index := by
    intro index hknown
    rw [hindex] at hknown
    cases hknown

open Work

variable {fs : FileSystem}

/-! ### Requests -/

theorem Work.ensures_send (request : Request) :
    Ensures (Session.IsSound fs) (fun _ ↦ True) (send request) := by
  unfold send
  refine Ensures.bind .get fun s hs ↦ ?_
  dsimp only
  refine Ensures.seq (.set ⟨hs.files, hs.page, hs.index⟩ trivial) fun _ ↦ ?_
  split
  · exact .throw _
  · exact .pure trivial

namespace StoryIndex

private theorem isTyped_ofReply (names : Text → Option Text) (url : RequestUrl)
    (reply : Reply) : Yields IsTyped (ofReply names url reply) := by
  intro index h
  unfold ofReply at h
  split at h
  · cases h
  · split at h
    · unfold ofBody at h
      split at h
      · cases h
      · split at h
        · cases h
        · split at h
          · cases h
          · next hvalue =>
            cases h
            exact isTyped_ofJson _ _ hvalue
    · cases h

private theorem ensures_fetchFrom (url : Text) :
    Ensures (Session.IsSound fs) (Yields IsTyped) (fetchFrom url) := by
  unfold fetchFrom
  refine Ensures.bind .get fun s _ ↦ ?_
  dsimp only
  split
  · exact .fail _
  · refine Ensures.bind (ensures_send _) fun exchange _ ↦ ?_
    split
    · exact .pure (isTyped_ofReply _ _ _)
    · exact .pure (by rintro index ⟨⟩)
    · exact .pure (by rintro index ⟨⟩)
    · exact .throw _

private theorem ensures_fetchFirst (error : ExtractionError) (urls : List Text) :
    Ensures (Session.IsSound fs) (Yields IsTyped) (fetchFirst error urls) := by
  induction urls generalizing error with
  | nil => exact .pure (by rintro index ⟨⟩)
  | cons url rest ih =>
    rw [fetchFirst]
    refine Ensures.bind (ensures_fetchFrom url) fun result hresult ↦ ?_
    cases result with
    | ok index => exact .pure (.ok (hresult index rfl))
    | error fault => exact ih _

/-- An index that is fetched has a type for every entry. -/
theorem ensures_fetch (base : Text) :
    Ensures (Session.IsSound fs) (Yields IsTyped) (fetch base) := ensures_fetchFirst _ _

end StoryIndex

/-- The index of the server has a type for every entry. -/
theorem ExtractionContext.ensures_liveIndex (c : ExtractionContext) :
    Ensures (Session.IsSound fs) (fun found ↦ ∀ index, found = some index → index.IsTyped)
      c.liveIndex := by
  unfold liveIndex
  split
  · exact .pure (by rintro index ⟨⟩)
  · next url _ =>
    refine Ensures.bind .get fun s hs ↦ ?_
    split
    · next index hknown =>
      refine .pure ?_
      rintro index rfl
      exact hs.index index hknown
    · refine Ensures.seq
        (.change (fun s hs ↦ ⟨hs.files, hs.page, by rintro index ⟨⟩⟩) trivial) fun _ ↦ ?_
      refine Ensures.bind (StoryIndex.ensures_fetch url) fun result hresult ↦ ?_
      cases result with
      | error fault => exact .pure (by rintro index ⟨⟩)
      | ok index =>
        have htyped := hresult index rfl
        refine Ensures.seq (.change (fun s hs ↦ ⟨hs.files, hs.page, ?_⟩) trivial)
          fun _ ↦ .pure ?_
        · rintro index ⟨⟩
          exact htyped
        · rintro index ⟨⟩
          exact htyped

/-! ### Introspection -/

/-- A value that comes of a visit is what the page shows. -/
theorem LivePage.story_of_visit {page : LivePage} {calls : List PageCall} {limit : Binary64}
    {storyId : Text} {data : Json} (h : (page.visit calls limit storyId).1 = .value data) :
    (page.shows calls).story storyId = .value data := by
  unfold visit at h
  split at h
  · cases h
  · split at h
    · exact h
    · cases h

/-- What the use of a page does to a session keeps the invariant: calls are noted, time passes. -/
structure Session.KeptByPage (Inv : Session → Prop) : Prop where
  noting : ∀ s calls, Inv s → Inv { s with calls := calls }
  waiting : ∀ s left, Inv s → Inv { s with remaining := left }

theorem Session.keptByPage_isSound : KeptByPage (IsSound fs) where
  noting _ _ hs := ⟨hs.files, hs.page, hs.index⟩
  waiting _ _ hs := ⟨hs.files, hs.page, hs.index⟩

theorem Session.keptByPage_liveIndex (live : LiveIndex) :
    KeptByPage fun s ↦ s.liveIndex = live where
  noting _ _ hs := hs
  waiting _ _ hs := hs

section

variable {Inv : Session → Prop}

private theorem Introspector.ensures_unlessFault (fault : Option BrowserFault) :
    Ensures Inv (fun _ ↦ True) (unlessFault fault) := by
  cases fault with
  | none => exact .pure trivial
  | some fault => exact .throw _

theorem Introspector.ensures_close : Ensures Inv (fun _ ↦ True) close :=
  Ensures.bind .get fun _ _ ↦ ensures_unlessFault _

variable (hpage : Session.KeptByPage Inv)

include hpage

theorem Work.ensures_note (call : PageCall) : Ensures Inv (fun _ ↦ True) (note call) :=
  .change (fun s hs ↦ hpage.noting s _ hs) trivial

theorem Work.ensures_wait (seconds : Binary64) : Ensures Inv (fun _ ↦ True) (wait seconds) := by
  unfold wait
  refine Ensures.bind .get fun s hs ↦ ?_
  split
  · exact .pure trivial
  · split
    · exact .set (hpage.waiting s _ hs) trivial
    · exact .throw _

namespace Introspector

variable (i : Introspector)

private theorem ensures_loadManager (page : LivePage) :
    Ensures Inv (fun _ ↦ True) (i.loadManager page) := by
  unfold loadManager
  refine Ensures.bind .get fun s hs ↦ Ensures.seq (ensures_note hpage _) fun _ ↦
    Ensures.seq (ensures_wait hpage _) fun _ ↦ ?_
  split
  · exact Ensures.bind .get fun s _ ↦ Ensures.seq (ensures_note hpage _) fun _ ↦ .pure trivial
  · exact .pure trivial

theorem ensures_openManager : Ensures Inv (fun _ ↦ True) i.openManager := by
  unfold openManager
  refine Ensures.bind .get fun s hs ↦ ?_
  split
  · exact .pure trivial
  · next page _ =>
    refine Ensures.seq (ensures_unlessFault _) fun _ ↦
      Ensures.seq (i.ensures_loadManager hpage page) fun loaded ↦ ?_
    split
    · exact .pure trivial
    · exact Ensures.seq ensures_close fun _ ↦ .pure trivial

/-- What is told of a story is an object that the page holds for it, or an error of the story. -/
theorem ensures_introspect (storyId : Text) :
    Ensures Inv (fun answer ↦
      (∀ fields, answer = .ok fields → ∃ s page, Inv s ∧ s.page = some page ∧
        (page.shows s.calls).story storyId = .value (.object fields)) ∧
      ∀ error, answer = .error error → ∃ message, error = .introspection message (some storyId))
      (i.introspect storyId) := by
  have herror : ∀ parts, Ensures Inv (fun answer ↦
      (∀ fields, answer = .ok fields → ∃ s page, Inv s ∧ s.page = some page ∧
        (page.shows s.calls).story storyId = .value (.object fields)) ∧
      ∀ error, answer = .error error → ∃ message, error = .introspection message (some storyId))
      (pure (.error (storyError storyId parts)) : Work (Except ExtractionError (Fields Json))) := by
    intro parts
    apply Ensures.pure
    constructor
    · rintro fields ⟨⟩
    · rintro error ⟨⟩
      exact ⟨_, rfl⟩
  unfold introspect
  refine Ensures.bind .get fun s hs ↦ ?_
  split
  · exact herror _
  · next page hsome =>
    split
    · exact herror _
    · split
      · exact herror _
      · refine Ensures.seq (ensures_note hpage _) fun _ ↦
          Ensures.seq (ensures_note hpage _) fun _ ↦ Ensures.seq (ensures_wait hpage _) fun _ ↦ ?_
        split
        · next data hdata =>
          cases data with
          | object fields =>
            apply Ensures.pure
            constructor
            · rintro fields' ⟨⟩
              exact ⟨s, page, hs, hsome, LivePage.story_of_visit hdata⟩
            · rintro error ⟨⟩
          | _ => exact herror _
        · exact herror _
        · exact herror _

end Introspector

end

/-- What a running story holds is of a form that readers give. -/
theorem Introspector.ensures_isProper (i : Introspector) (storyId : Text) :
    Ensures (Session.IsSound fs) (Yields fun fields ↦ (Json.object fields).IsProper)
      (i.introspect storyId) := by
  apply (i.ensures_introspect Session.keptByPage_isSound storyId).imp
  intro answer hanswer fields hfields
  obtain ⟨s, page, hs, hpage, hdata⟩ := hanswer.1 fields hfields
  exact hs.page page hpage s.calls storyId _ hdata

end StoryCatalog
