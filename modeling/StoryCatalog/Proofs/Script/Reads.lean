import StoryCatalog.Script.Token

/-!
# What a reader reads

A reader goes through its source by position. Since a position is known by the characters that are
left behind it, the law of a reader says what it reads off the characters that are left and which
of them it leaves (`Reads`), or that it gives up (`Fails`). Laws are composed along the binds of a
reader, and along the rounds of a repetition (`Repeats`).
-/

namespace StoryCatalog.Script

/-- The position at which given characters are left of the source. -/
def Scope.offset (scope : Scope) (left : List Char) : Nat := scope.source.size - left.length

/-- The place of a reader inside brackets. -/
def Scope.bracketed (scope : Scope) : Scope :=
  { scope with lineEnds := false, admitsIn := true, admitsResultType := true }

/-- The place of a reader of a statement with given characters left. -/
def Scope.asStatement (scope : Scope) (left : List Char) : Scope :=
  { scope with
    lineEnds := true, admitsIn := true, admitsResultType := true, statement := scope.offset left }

variable {scope : Scope} {left mid rest : List Char}

/-! ### Positions -/

theorem Scope.length_le (h : left <:+ scope.source.toList) : left.length ≤ scope.source.size :=
  h.length_le

theorem Scope.offset_append (h : left ++ rest <:+ scope.source.toList) :
    scope.offset rest = scope.offset (left ++ rest) + left.length := by
  have hlength := Scope.length_le h
  rw [List.length_append] at hlength
  rw [Scope.offset, Scope.offset, List.length_append]
  omega

theorem Scope.offset_cons {c : Char} (h : c :: rest <:+ scope.source.toList) :
    scope.offset rest = scope.offset (c :: rest) + 1 :=
  Scope.offset_append (show [c] ++ rest <:+ scope.source.toList from h)

theorem Scope.drop_offset (h : left <:+ scope.source.toList) :
    scope.source.toList.drop (scope.offset left) = left := by
  obtain ⟨front, hfront⟩ := h
  have hlength : front.length + left.length = scope.source.size := by
    rw [← List.length_append, hfront, Array.length_toList]
  rw [← hfront, List.drop_left']
  rw [Scope.offset]
  omega

theorem Scope.getElem?_offset (h : left <:+ scope.source.toList) (n : Nat) :
    scope.source[scope.offset left + n]? = left[n]? := by
  rw [← Array.getElem?_toList, ← List.getElem?_drop, Scope.drop_offset h]

theorem Scope.head?_offset (h : left <:+ scope.source.toList) :
    scope.source[scope.offset left]? = left.head? := by
  rw [← Nat.add_zero (scope.offset left), Scope.getElem?_offset h, List.head?_eq_getElem?]

theorem Scope.extract_offset (h : left ++ rest <:+ scope.source.toList) :
    (scope.source.extract (scope.offset (left ++ rest)) (scope.offset rest)).toList = left := by
  rw [Array.toList_extract, List.extract_eq_take_drop, Scope.drop_offset h, Scope.offset_append h,
    Nat.add_sub_cancel_left, List.take_left]

/-- Where fewer characters are left the position is another one. -/
theorem Scope.offset_ne (hleft : left <:+ scope.source.toList)
    (h : mid.length < left.length) : scope.offset mid ≠ scope.offset left := by
  have hlength := Scope.length_le hleft
  rw [Scope.offset, Scope.offset]
  omega

namespace Reading

variable {α β : Type} {reader first second : Reading α} {next : α → Reading β} {a : α} {b : β}

/-- With `left` left of the source, the reader gives `a` and leaves `rest`. -/
def Reads (reader : Reading α) (scope : Scope) (left rest : List Char) (a : α) : Prop :=
  left <:+ scope.source.toList →
    rest <:+ scope.source.toList ∧ reader scope (scope.offset left) = .ok (a, scope.offset rest)

/-- With `left` left of the source, the reader gives up. -/
def Fails (reader : Reading α) (scope : Scope) (left : List Char) : Prop :=
  left <:+ scope.source.toList →
    ∃ failure, reader scope (scope.offset left) = .error failure

/-! ### One reader after another -/

theorem Reads.pure : Reads (pure a) scope left left a := fun hleft ↦ ⟨hleft, rfl⟩

theorem Reads.bind (hfirst : Reads first scope left mid a)
    (hnext : Reads (next a) scope mid rest b) :
    Reads (first >>= next) scope left rest b := by
  intro hleft
  obtain ⟨hmid, hread⟩ := hfirst hleft
  obtain ⟨hrest, hread'⟩ := hnext hmid
  refine ⟨hrest, ?_⟩
  change (first scope (scope.offset left) >>= fun x ↦ next x.1 scope x.2) = _
  rw [hread]
  exact hread'

theorem fails_fail : Fails (fail : Reading α) scope left := fun _ ↦ ⟨_, rfl⟩

theorem Fails.bind (hfirst : Fails first scope left) : Fails (first >>= next) scope left := by
  intro hleft
  obtain ⟨failure, hread⟩ := hfirst hleft
  refine ⟨failure, ?_⟩
  change (first scope (scope.offset left) >>= fun x ↦ next x.1 scope x.2) = _
  rw [hread]
  rfl

theorem Reads.bind_fails (hfirst : Reads first scope left mid a)
    (hnext : Fails (next a) scope mid) : Fails (first >>= next) scope left := by
  intro hleft
  obtain ⟨hmid, hread⟩ := hfirst hleft
  obtain ⟨failure, hread'⟩ := hnext hmid
  refine ⟨failure, ?_⟩
  change (first scope (scope.offset left) >>= fun x ↦ next x.1 scope x.2) = _
  rw [hread]
  exact hread'

theorem Reads.seqRight {other : Reading β} (hfirst : Reads first scope left mid a)
    (hother : Reads other scope mid rest b) : Reads (first *> other) scope left rest b := by
  rw [seqRight_eq_bind]
  exact hfirst.bind hother

theorem Reads.discard (h : Reads reader scope left rest a) :
    Reads (discard reader) scope left rest () := by
  have hmap : Functor.discard reader = reader >>= fun _ ↦ Pure.pure () := by
    rw [Functor.discard, Functor.mapConst, bind_pure_comp]
    rfl
  rw [hmap]
  exact h.bind .pure

/-! ### One reader or another -/

theorem Reads.orElse (h : Reads first scope left rest a) :
    Reads (first <|> second) scope left rest a := by
  intro hleft
  obtain ⟨hrest, hread⟩ := h hleft
  refine ⟨hrest, ?_⟩
  change Reading.orElse first (fun _ ↦ second) scope _ = _
  rw [Reading.orElse, hread]

theorem Fails.orElse (hfirst : Fails first scope left) (hsecond : Reads second scope left rest a) :
    Reads (first <|> second) scope left rest a := by
  intro hleft
  obtain ⟨failure, hread⟩ := hfirst hleft
  obtain ⟨hrest, hread'⟩ := hsecond hleft
  refine ⟨hrest, ?_⟩
  change Reading.orElse first (fun _ ↦ second) scope _ = _
  rw [Reading.orElse, hread, hread']

/-! ### The place of a reader -/

theorem reads_position : Reads position scope left left (scope.offset left) :=
  fun hleft ↦ ⟨hleft, rfl⟩

theorem reads_read : Reads (read : Reading Scope) scope left left scope := fun hleft ↦ ⟨hleft, rfl⟩

theorem Reads.bracketed (h : Reads reader scope.bracketed left rest a) :
    Reads (Reading.bracketed reader) scope left rest a := h

theorem Reads.asStatement (h : Reads reader (scope.asStatement left) left rest a) :
    Reads (Reading.asStatement reader) scope left rest a := h

/-- The text read since a position at which more was left. -/
theorem reads_textFrom (h : left ++ rest <:+ scope.source.toList) :
    Reads (textFrom (scope.offset (left ++ rest))) scope rest rest (Text.ofChars left) := by
  intro hrest
  refine ⟨hrest, ?_⟩
  rw [textFrom, Scope.extract_offset h]

/-- In a law the characters that are left may be taken for those of the source. -/
theorem Reads.of_isSuffix
    (h : left <:+ scope.source.toList → Reads reader scope left rest a) :
    Reads reader scope left rest a := fun hleft ↦ h hleft hleft

/-! ### Repetition -/

/-- The rounds of a reader that is used until it gives nothing: each gives one of the results and
moves on. -/
inductive Repeats (reader : Reading (Option α)) (scope : Scope) :
    List Char → List Char → List α → Prop where
  | stop {left rest : List Char} : Reads reader scope left rest none →
    Repeats reader scope left rest []
  | step {left mid rest : List Char} {a : α} {results : List α} :
    Reads reader scope left mid (some a) → mid.length < left.length →
    Repeats reader scope mid rest results → Repeats reader scope left rest (a :: results)

private theorem Repeats.reads_repeatWith {reader : Reading (Option α)} {results : List α}
    (h : Repeats reader scope left rest results) :
    ∀ (fuel : Nat) (read : List α), left.length < fuel →
      Reads (repeatWith reader fuel read) scope left rest (read.reverse ++ results) := by
  induction h with
  | stop hnone =>
    intro fuel read hfuel
    obtain ⟨fuel, rfl⟩ := Nat.exists_eq_add_one_of_ne_zero (Nat.ne_zero_of_lt hfuel)
    rw [repeatWith, List.append_nil]
    exact reads_position.bind (hnone.bind .pure)
  | @step left mid rest a results hsome hlength _ ih =>
    intro fuel read hfuel
    obtain ⟨fuel, rfl⟩ := Nat.exists_eq_add_one_of_ne_zero (Nat.ne_zero_of_lt hfuel)
    refine .of_isSuffix fun hleft ↦ ?_
    rw [repeatWith]
    refine reads_position.bind (hsome.bind (reads_position.bind ?_))
    dsimp only
    rw [if_neg (Scope.offset_ne hleft hlength)]
    have hreads := ih fuel (a :: read) (by omega)
    rwa [List.reverse_cons, List.append_assoc, List.singleton_append] at hreads

/-- A repetition gives the results of its rounds. -/
theorem Repeats.reads {reader : Reading (Option α)} {results : List α}
    (h : Repeats reader scope left rest results) :
    Reads (repeated reader) scope left rest results := by
  refine .of_isSuffix fun hleft ↦ reads_read.bind ?_
  have hlength := Scope.length_le hleft
  exact h.reads_repeatWith _ [] (by omega)

end Reading

end StoryCatalog.Script
