import StoryCatalog.Extraction.Strategy
import StoryCatalog.Proofs.Session.Work

/-!
# Sessions with other files

The server and the browser answer the same whatever the files are and whatever time it is. Work that
looks only at them comes to the same in a session with other files and another time, up to where it
notes the time (`Work.Follows`), so it changes neither files nor time (`Work.Follows.isAt`).
-/

namespace StoryCatalog

/-- The session with other files and another time. -/
def Session.moved (files : FileSystem) (now : Timestamp) (s : Session) : Session :=
  { s with files, now }

/-- A session with given files and a given time. -/
def Session.IsAt (files : FileSystem) (now : Timestamp) (s : Session) : Prop :=
  s.files = files ∧ s.now = now

namespace Work

variable {α β : Type} {g : Timestamp → α → α} {files : FileSystem} {now : Timestamp}

/-- In a session with other files and another time the work does the same, and a change for the
time is all that makes a difference to what it comes to. -/
def Follows (g : Timestamp → α → α) (w : Work α) : Prop :=
  ∀ files now s, w.perform (s.moved files now) =
    ((w.perform s).1.map (g now), (w.perform s).2.moved files now)

/-- Work whose result does not depend on the time either. -/
abbrev IsBlind (w : Work α) : Prop := Follows (fun _ a ↦ a) w

namespace Follows

theorem pure {a : α} (h : ∀ now, g now a = a) : Follows g (Pure.pure a) := by
  intro files now s
  rw [perform_pure, perform_pure, Except.map, h]

theorem throw (e : Interruption) : Follows g (MonadExcept.throw e : Work α) := fun _ _ _ ↦ rfl

theorem fail (f : Failure) : Follows g (Work.fail f : Work α) := throw (.failed f)

/-- Changing what is neither the files nor the time. -/
theorem change {f : Session → Session}
    (h : ∀ files now s, f (s.moved files now) = (f s).moved files now) :
    IsBlind (modify f : Work Unit) := by
  intro files now s
  rw [perform_modify, perform_modify, h]
  rfl

/-- One part after another. -/
theorem bind {w : Work β} {f : β → Work α} (hw : IsBlind w) (hf : ∀ b, Follows g (f b)) :
    Follows g (w >>= f) := by
  intro files now s
  have hmoved := hw files now s
  rcases hdone : w.perform s with ⟨result, s'⟩
  rw [hdone] at hmoved
  cases result with
  | error e =>
    rw [perform_bind_error hdone, perform_bind_error hmoved]
    rfl
  | ok b =>
    rw [perform_bind_ok hdone, perform_bind_ok hmoved]
    exact hf b files now s'

/-- What depends on a part of the session that is neither the files nor the time. -/
theorem get {f : Session → Work α} (hsame : ∀ files now s, f (s.moved files now) = f s)
    (hf : ∀ s, Follows g (f s)) : Follows g (MonadState.get >>= f) := by
  intro files now s
  rw [perform_bind_ok (perform_get s), perform_bind_ok (perform_get (s.moved files now)), hsame]
  exact hf s files now s

/-- What notes the time at its end. -/
theorem note {f : Session → α} (h : ∀ files now s, f (s.moved files now) = g now (f s)) :
    Follows g (MonadState.get >>= fun s ↦ Pure.pure (f s)) := by
  intro files now s
  rw [perform_bind_ok (perform_get s), perform_bind_ok (perform_get (s.moved files now)),
    perform_pure, perform_pure, h]
  rfl

/-- What is done at last, whatever comes of the work. -/
theorem tryFinally {w : Work α} {last : Work Unit} (hw : Follows g w) (hlast : IsBlind last) :
    Follows g (try w finally last) := by
  intro files now s
  rw [perform_finally, perform_finally, hw, hlast]
  rcases last.perform (w.perform s).2 with ⟨e | u, s'⟩ <;> rfl

theorem limited (limit : Option Number) {w : Work α} (h : Follows g w) :
    Follows g (Work.limited limit w) := by
  intro files now s
  rw [perform_limited, perform_limited]
  cases limit with
  | none => exact h files now s
  | some seconds =>
    dsimp only
    split
    · rfl
    · have hmoved := h files now { s with remaining := some seconds.toBinary64 }
      change w.perform { s.moved files now with remaining := some seconds.toBinary64 } = _ at hmoved
      rw [hmoved]
      rfl

/-- Work that looks neither at the files nor at the time changes neither. -/
theorem isAt {w : Work α} (h : Follows g w) {s : Session} (hs : s.IsAt files now) :
    (w.perform s).2.IsAt files now := by
  obtain ⟨rfl, rfl⟩ := hs
  have hsame := congrArg Prod.snd (h s.files s.now s)
  change (w.perform s).2 = (w.perform s).2.moved s.files s.now at hsame
  rw [hsame]
  exact ⟨rfl, rfl⟩

/-- What holds of a result in every session holds of it while files and time stay. -/
theorem ensures {w : Work α} {Post : α → Prop} (h : Follows g w)
    (hpost : Ensures (fun _ ↦ True) Post w) : Ensures (Session.IsAt files now) Post w :=
  fun s hs ↦ ⟨h.isAt hs, (hpost s trivial).2⟩

end Follows

/-! ### Requests and pages -/

theorem isBlind_send (request : Request) : IsBlind (send request) := by
  intro files now s
  unfold send
  rw [perform_bind_ok (perform_get s), perform_bind_ok (perform_get (s.moved files now))]
  dsimp only [Session.moved]
  generalize s.server s.requests request = exchange
  cases exchange <;> rfl

theorem isBlind_note (call : PageCall) : IsBlind (note call) :=
  .change fun _ _ _ ↦ rfl

theorem isBlind_wait (seconds : Binary64) : IsBlind (wait seconds) := by
  intro files now s
  unfold wait
  rw [perform_bind_ok (perform_get s), perform_bind_ok (perform_get (s.moved files now))]
  cases s with
  | mk _ _ _ _ _ _ _ _ remaining =>
    cases remaining with
    | none => rfl
    | some left =>
      dsimp only [Session.moved]
      split <;> rfl

end Work

open Work

namespace StoryIndex

private theorem isBlind_fetchFrom (url : Text) : IsBlind (fetchFrom url) := by
  unfold fetchFrom
  refine .get (fun _ _ _ ↦ rfl) fun s ↦ ?_
  dsimp only
  split
  · exact .fail _
  · refine .bind (isBlind_send _) fun exchange ↦ ?_
    cases exchange with
    | cutOff => exact .throw _
    | _ => exact .pure fun _ ↦ rfl

private theorem isBlind_fetchFirst (error : ExtractionError) (urls : List Text) :
    IsBlind (fetchFirst error urls) := by
  induction urls generalizing error with
  | nil => exact .pure fun _ ↦ rfl
  | cons url rest ih =>
    rw [fetchFirst]
    refine .bind (isBlind_fetchFrom url) fun result ↦ ?_
    cases result with
    | ok index => exact .pure fun _ ↦ rfl
    | error fault => exact ih _

theorem isBlind_fetch (base : Text) : IsBlind (fetch base) := isBlind_fetchFirst _ _

end StoryIndex

theorem ExtractionContext.isBlind_liveIndex (c : ExtractionContext) : IsBlind c.liveIndex := by
  unfold liveIndex
  split
  · exact .pure fun _ ↦ rfl
  · refine .get (fun _ _ _ ↦ rfl) fun s ↦ ?_
    split
    · exact .pure fun _ ↦ rfl
    · refine .bind (.change fun _ _ _ ↦ rfl) fun _ ↦ ?_
      refine .bind (StoryIndex.isBlind_fetch _) fun result ↦ ?_
      cases result with
      | error fault => exact .pure fun _ ↦ rfl
      | ok index => exact .bind (.change fun _ _ _ ↦ rfl) fun _ ↦ .pure fun _ ↦ rfl

namespace Introspector

variable (i : Introspector)

private theorem isBlind_unlessFault (fault : Option BrowserFault) :
    IsBlind (unlessFault fault) := by
  cases fault with
  | none => exact .pure fun _ ↦ rfl
  | some fault => exact .throw _

theorem isBlind_close : IsBlind close :=
  .get (fun _ _ _ ↦ rfl) fun _ ↦ isBlind_unlessFault _

private theorem isBlind_loadManager (page : LivePage) : IsBlind (i.loadManager page) := by
  unfold loadManager
  refine .get (fun _ _ _ ↦ rfl) fun s ↦ ?_
  refine .bind (isBlind_note _) fun _ ↦ .bind (isBlind_wait _) fun _ ↦ ?_
  split
  · refine .get (fun _ _ _ ↦ rfl) fun s ↦ ?_
    exact .bind (isBlind_note _) fun _ ↦ .pure fun _ ↦ rfl
  · exact .pure fun _ ↦ rfl

theorem isBlind_openManager : IsBlind i.openManager := by
  unfold openManager
  refine .get (fun _ _ _ ↦ rfl) fun s ↦ ?_
  split
  · exact .pure fun _ ↦ rfl
  · next page _ =>
    refine .bind (isBlind_unlessFault _) fun _ ↦ .bind (i.isBlind_loadManager page) fun loaded ↦ ?_
    split
    · exact .pure fun _ ↦ rfl
    · exact .bind isBlind_close fun _ ↦ .pure fun _ ↦ rfl

theorem isBlind_introspect (storyId : Text) : IsBlind (i.introspect storyId) := by
  unfold introspect
  refine .get (fun _ _ _ ↦ rfl) fun s ↦ ?_
  split
  · exact .pure fun _ ↦ rfl
  · split
    · exact .pure fun _ ↦ rfl
    · split
      · exact .pure fun _ ↦ rfl
      · refine .bind (isBlind_note _) fun _ ↦ .bind (isBlind_note _) fun _ ↦ ?_
        refine .bind (isBlind_wait _) fun _ ↦ ?_
        split <;> exact .pure fun _ ↦ rfl

end Introspector

/-! ### Strategies for a running Storybook -/

/-- The catalog as if it had been extracted at another time. -/
def Catalog.redated (now : Timestamp) (catalog : Catalog) : Catalog :=
  { catalog with generatedAt := now }

namespace Strategy

private theorem redated_foldl_add (c : Catalog) (now : Timestamp) (records : List StoryRecord) :
    records.foldl Catalog.add (c.redated now) = (records.foldl Catalog.add c).redated now := by
  induction records generalizing c with
  | nil => rfl
  | cons r rest ih => exact ih (c.add r)

/-- The time makes no other difference to a catalog. -/
theorem redated_ofRecords (source : Provenance) (before now : Timestamp)
    (records : List StoryRecord) :
    Catalog.ofRecords source now records = (Catalog.ofRecords source before records).redated now :=
  redated_foldl_add { extractedFrom := source, generatedAt := before } now records

variable (c : ExtractionContext)

private theorem isBlind_introspectEntry (i : Introspector) (key : Text) (entry : IndexEntry) :
    IsBlind (introspectEntry i key entry) := by
  refine .bind (i.isBlind_introspect _) fun result ↦ ?_
  cases result with
  | error error => exact .pure fun _ ↦ rfl
  | ok fields =>
    dsimp only
    split
    · exact .pure fun _ ↦ rfl
    · exact .fail _

private theorem isBlind_introspectAll (i : Introspector) (entries : List (Text × IndexEntry)) :
    IsBlind (introspectAll i entries) := by
  induction entries with
  | nil => exact .pure fun _ ↦ rfl
  | cons entry rest ih =>
    refine .bind (isBlind_introspectEntry i entry.1 entry.2) fun first ↦ ?_
    exact .bind ih fun more ↦ .pure fun _ ↦ rfl

private theorem isBlind_openAndIntrospect (i : Introspector)
    (entries : List (Text × IndexEntry)) : IsBlind (openAndIntrospect i entries) := by
  refine .bind i.isBlind_openManager fun opened ↦ ?_
  split
  · exact .pure fun _ ↦ rfl
  · exact .fail _
  · refine .bind (.tryFinally (isBlind_introspectAll i entries) Introspector.isBlind_close)
      fun result ↦ .pure fun _ ↦ rfl

/-- Introspecting the stories of a running Storybook depends on the time only for the catalog's. -/
theorem follows_extractDeep :
    Follows (fun now ↦ Option.map (Catalog.redated now)) (extractDeep c) := by
  refine .bind c.isBlind_liveIndex fun found ↦ ?_
  split
  · exact .pure fun _ ↦ rfl
  · split
    · exact .pure fun _ ↦ rfl
    · refine .bind (isBlind_openAndIntrospect _ _) fun opened ↦ ?_
      split
      · exact .note fun files now s ↦ congrArg some (redated_ofRecords _ s.now now _)
      · exact .pure fun _ ↦ rfl

/-- Reading the index of a running Storybook depends on the time only for the catalog's. -/
theorem follows_extractBasic :
    Follows (fun now ↦ Option.map (Catalog.redated now)) (extractBasic c) := by
  refine .bind c.isBlind_liveIndex fun found ↦ ?_
  split
  · exact .pure fun _ ↦ rfl
  · exact .note fun files now s ↦ congrArg some (redated_ofRecords _ s.now now _)

end Strategy

end StoryCatalog
