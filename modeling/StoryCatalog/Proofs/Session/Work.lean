import StoryCatalog.Session

/-!
# Performing work

What each step of a piece of work comes to in a session, and a rule for pieces of work that keep an
invariant of the session: `Ensures` is carried from the steps to the whole by `Ensures.bind`.
-/

namespace StoryCatalog.Work

variable {α β : Type}

@[simp] theorem perform_pure (a : α) (s : Session) : (pure a : Work α).perform s = (.ok a, s) := rfl

@[simp] theorem perform_get (s : Session) : (get : Work Session).perform s = (.ok s, s) := rfl

@[simp] theorem perform_modify (f : Session → Session) (s : Session) :
    (modify f : Work Unit).perform s = (.ok (), f s) := rfl

@[simp] theorem perform_throw (e : Interruption) (s : Session) :
    (throw e : Work α).perform s = (.error e, s) := rfl

@[simp] theorem perform_fail (f : Failure) (s : Session) :
    (fail f : Work α).perform s = (.error (.failed f), s) := rfl

/-- What follows is performed in the session that the first part leaves, unless that part ends the
work. -/
theorem perform_bind (w : Work α) (f : α → Work β) (s : Session) :
    (w >>= f).perform s =
      match w.perform s with
      | (.ok a, s') => (f a).perform s'
      | (.error e, s') => (.error e, s') := by
  change (ExceptT.bind w f).run s = _
  simp only [ExceptT.bind, ExceptT.mk, perform, ExceptT.run, StateT.run, bind, StateT.bind]
  rcases w s with ⟨result, s'⟩
  cases result <;> rfl

/-- A part that comes to a value passes it on. -/
theorem perform_bind_ok {w : Work α} {f : α → Work β} {s s' : Session} {a : α}
    (h : w.perform s = (.ok a, s')) : (w >>= f).perform s = (f a).perform s' := by
  rw [perform_bind, h]

/-- A part that ends the work ends it for what follows too. -/
theorem perform_bind_error {w : Work α} {f : α → Work β} {s s' : Session} {e : Interruption}
    (h : w.perform s = (.error e, s')) : (w >>= f).perform s = (.error e, s') := by
  rw [perform_bind, h]

/-- What is done at last is done whatever comes of the work, whose result stands unless the last
part ends the work itself. -/
theorem perform_finally (w : Work α) (last : Work Unit) (s : Session) :
    (try w finally last).perform s =
      match last.perform (w.perform s).2 with
      | (.ok (), s') => ((w.perform s).1, s')
      | (.error e, s') => (.error e, s') := by
  change ExceptT.run (tryFinally w last) s = _
  simp only [tryFinally, tryFinally', ExceptT.run, ExceptT.mk, StateT.run, Functor.map, ExceptT.map,
    bind, StateT.bind, pure, perform]
  rcases w s with ⟨result, s'⟩
  cases result <;>
    · dsimp only
      rcases last s' with ⟨e | u, s''⟩ <;> rfl

/-- The limit under which work is performed is not left behind. -/
theorem perform_limited (limit : Option Number) (w : Work α) (s : Session) :
    (limited limit w).perform s =
      match limit with
      | none => w.perform s
      | some seconds =>
        if isOver seconds then (.error .cutOff, s)
        else
          let done := w.perform { s with remaining := some seconds.toBinary64 }
          (done.1, { done.2 with remaining := s.remaining }) := by
  cases limit with
  | none => rfl
  | some seconds =>
    simp only [limited]
    split <;> rfl

/-- Work that looks at no limit and leaves the session alone is the same under a limit, unless it is
cut off at once. -/
theorem perform_limited_of_eq (limit : Option Number) {w : Work α} {s : Session}
    {r : Except Interruption α} (h : ∀ left, w.perform { s with remaining := left } =
      (r, { s with remaining := left })) :
    (limited limit w).perform s =
      (if limit.any isOver = true then .error .cutOff else r, s) := by
  rw [perform_limited]
  cases limit with
  | none => exact h s.remaining
  | some seconds =>
    rw [Option.any_some]
    dsimp only
    split
    · rfl
    · rw [h]

/-! ### Invariants -/

/-- In a session with an invariant, the work keeps it, and what it comes to has a property. -/
def Ensures (Inv : Session → Prop) (Post : α → Prop) (w : Work α) : Prop :=
  ∀ s, Inv s → Inv (w.perform s).2 ∧ ∀ a, (w.perform s).1 = .ok a → Post a

namespace Ensures

variable {Inv : Session → Prop} {Post Mid : α → Prop}

/-- Less may be said of what the work comes to. -/
theorem imp {w : Work α} (h : Ensures Inv Mid w) (himp : ∀ a, Mid a → Post a) :
    Ensures Inv Post w := by
  intro s hs
  obtain ⟨hinv, hmid⟩ := h s hs
  exact ⟨hinv, fun a ha ↦ himp a (hmid a ha)⟩

/-- Nothing is relied on. -/
theorem any (w : Work α) : Ensures (fun _ ↦ True) (fun _ ↦ True) w :=
  fun _ _ ↦ ⟨trivial, fun _ _ ↦ trivial⟩

/-- A value without work. -/
theorem pure {a : α} (h : Post a) : Ensures Inv Post (Pure.pure a) := by
  intro s hs
  refine ⟨hs, ?_⟩
  intro b hb
  rw [perform_pure] at hb
  rw [← Except.ok.inj hb]
  exact h

/-- The session itself has the invariant. -/
theorem get : Ensures Inv Inv (MonadState.get : Work Session) := by
  intro s hs
  refine ⟨hs, ?_⟩
  intro b hb
  rw [perform_get] at hb
  rw [← Except.ok.inj hb]
  exact hs

/-- A change of the session that keeps the invariant. -/
theorem change {f : Session → Session} {Post : Unit → Prop} (h : ∀ s, Inv s → Inv (f s))
    (hpost : Post ()) : Ensures Inv Post (modify f : Work Unit) :=
  fun s hs ↦ ⟨h s hs, fun _ _ ↦ hpost⟩

/-- The session is replaced by one with the invariant. -/
theorem set {s' : Session} {Post : Unit → Prop} (h : Inv s') (hpost : Post ()) :
    Ensures Inv Post (MonadStateOf.set s' : Work Unit) := fun _ _ ↦ ⟨h, fun _ _ ↦ hpost⟩

/-- Work that leaves the session alone. -/
theorem of_eq {w : Work α} {r : Session → Except Interruption α} (h : ∀ s, w.perform s = (r s, s))
    (hpost : ∀ s a, Inv s → r s = .ok a → Post a) : Ensures Inv Post w := by
  intro s hs
  rw [h]
  exact ⟨hs, fun a ha ↦ hpost s a hs ha⟩

/-- Work that ends at once. -/
theorem throw (e : Interruption) : Ensures Inv Post (MonadExcept.throw e : Work α) := by
  intro s hs
  refine ⟨hs, ?_⟩
  intro b hb
  rw [perform_throw] at hb
  cases hb

/-- Work that ends with a failure. -/
theorem fail (f : Failure) : Ensures Inv Post (Work.fail f : Work α) := throw (.failed f)

/-- One part after another. -/
theorem bind {w : Work α} {f : α → Work β} {Last : β → Prop} (hw : Ensures Inv Mid w)
    (hf : ∀ a, Mid a → Ensures Inv Last (f a)) : Ensures Inv Last (w >>= f) := by
  intro s hs
  obtain ⟨hinv, hmid⟩ := hw s hs
  rcases hdone : w.perform s with ⟨result, s'⟩
  rw [hdone] at hinv hmid
  cases result with
  | error e =>
    rw [perform_bind_error hdone]
    refine ⟨hinv, ?_⟩
    intro b hb
    cases hb
  | ok a =>
    rw [perform_bind_ok hdone]
    exact hf a (hmid a rfl) s' hinv

/-- One part after another that gives nothing to rely on. -/
theorem seq {w : Work α} {f : α → Work β} {Last : β → Prop} (hw : Ensures Inv (fun _ ↦ True) w)
    (hf : ∀ a, Ensures Inv Last (f a)) : Ensures Inv Last (w >>= f) := bind hw fun a _ ↦ hf a

/-- What is done at last keeps the invariant too. -/
theorem tryFinally {w : Work α} {last : Work Unit} (hw : Ensures Inv Post w)
    (hlast : Ensures Inv (fun _ ↦ True) last) : Ensures Inv Post (try w finally last) := by
  intro s hs
  obtain ⟨hinv, hpost⟩ := hw s hs
  have hkept := (hlast _ hinv).1
  rw [perform_finally]
  rcases hdone : last.perform (w.perform s).2 with ⟨e | u, s'⟩
  · rw [hdone] at hkept
    exact ⟨hkept, fun a ha ↦ by cases ha⟩
  · rw [hdone] at hkept
    exact ⟨hkept, hpost⟩

/-- A limit changes nothing if the invariant does not depend on the time that is left. -/
theorem limited (limit : Option Number) {w : Work α}
    (hinv : ∀ s left, Inv s → Inv { s with remaining := left }) (hw : Ensures Inv Post w) :
    Ensures Inv Post (Work.limited limit w) := by
  intro s hs
  rw [perform_limited]
  cases limit with
  | none => exact hw s hs
  | some seconds =>
    dsimp only
    split
    · refine ⟨hs, ?_⟩
      intro b hb
      cases hb
    · obtain ⟨hkept, hpost⟩ := hw _ (hinv s (some seconds.toBinary64) hs)
      exact ⟨hinv _ _ hkept, hpost⟩

end Ensures

end StoryCatalog.Work
