import StoryCatalog.Json.Printer
import StoryCatalog.Proofs.Json.Limit
import StoryCatalog.Proofs.Json.Value
import StoryCatalog.Proofs.Text.Digits

/-!
# Values within the limit of digits

A value is displayed exactly if its integers are within the limit (`Json.display_ok_iff`). A reader
refuses an integer of more digits, so whatever it gives can be displayed
(`Json.fitsLimit_of_read`).
-/

namespace StoryCatalog.Json

/-! ### Displaying -/

private theorem displayItems_ok_iff {items : List Json}
    (h : ∀ item ∈ items, (∃ t, displayInner item = .ok t) ↔ FitsLimit item) :
    (∃ texts, displayItems items = .ok texts) ↔ ∀ item ∈ items, FitsLimit item := by
  induction items with
  | nil => simp [displayItems]
  | cons item rest ih =>
    obtain ⟨hitem, hrest⟩ := List.forall_mem_cons.mp h
    rw [List.forall_mem_cons, ← hitem, ← ih hrest, displayItems]
    cases displayInner item <;> cases displayItems rest <;>
      simp [bind, Except.bind, pure, Except.pure]

private theorem displayFields_ok_iff {fields : List (Text × Json)}
    (h : ∀ field ∈ fields, (∃ t, displayInner field.2 = .ok t) ↔ FitsLimit field.2) :
    (∃ texts, displayFields fields = .ok texts) ↔ ∀ field ∈ fields, FitsLimit field.2 := by
  induction fields with
  | nil => simp [displayFields]
  | cons field rest ih =>
    obtain ⟨key, value⟩ := field
    obtain ⟨hfield, hrest⟩ := List.forall_mem_cons.mp h
    rw [List.forall_mem_cons, ← hfield, ← ih hrest, displayFields]
    cases displayInner value <;> cases displayFields rest <;>
      simp [bind, Except.bind, pure, Except.pure]

private theorem displayInner_ok_iff (value : Json) :
    (∃ t, displayInner value = .ok t) ↔ FitsLimit value := by
  induction value using Json.induction with
  | null => simp [displayInner, FitsLimit, FitsPart]
  | bool b => simp [displayInner, FitsLimit, FitsPart]
  | number n =>
    cases n with
    | int n => by_cases h : Number.fitsLimit n <;> simp [displayInner, FitsLimit, FitsPart, h]
    | float x => simp [displayInner, FitsLimit, FitsPart]
  | string t => simp [displayInner, FitsLimit, FitsPart]
  | array items ih =>
    rw [fitsLimit_array, ← displayItems_ok_iff ih, displayInner]
    cases displayItems items <;> simp [bind, Except.bind, pure, Except.pure]
  | object fields ih =>
    rw [fitsLimit_object, ← displayFields_ok_iff ih, displayInner]
    cases displayFields fields <;> simp [bind, Except.bind, pure, Except.pure]

/-- A value is displayed exactly if its integers are within the digit limit. -/
theorem display_ok_iff {value : Json} : (∃ t, display value = .ok t) ↔ FitsLimit value := by
  cases value with
  | string t => exact iff_of_true ⟨t, rfl⟩ fitsLimit_string
  | _ => exact displayInner_ok_iff _

/-! ### Reading -/

section Reading

variable {depth : Nat}

/-- What is read, if anything is, is within the limit. -/
private def Fits (x : Except Stop (Json × Cursor)) : Prop :=
  ∀ value cursor, x = .ok (value, cursor) → FitsLimit value

private theorem Fits.ok {value : Json} {cursor : Cursor} (h : FitsLimit value) :
    Fits (.ok (value, cursor)) := fun _ _ heq ↦ by
  cases heq
  exact h

private theorem Fits.error {stop : Stop} : Fits (.error stop) := fun _ _ heq ↦ by cases heq

/-- As many digits as the limit allows make an integer within it. -/
private theorem fitsLimit_of_length {t : Text} (h : t.length ≤ Number.digitLimit)
    (negative : Bool) :
    let n : Int := Text.readDigits 10 (t.filterMap CodePoint.digitValue?)
    Number.fitsLimit (if negative then -n else n) = true := by
  intro n
  have hdigits : ∀ d ∈ t.filterMap CodePoint.digitValue?, d < 10 := by
    intro d hd
    obtain ⟨c, -, hc⟩ := List.mem_filterMap.mp hd
    unfold CodePoint.digitValue? at hc
    split at hc
    · next hdigit =>
      cases hc
      simp only [CodePoint.isDigit, Bool.and_eq_true, decide_eq_true_iff] at hdigit
      omega
    · cases hc
  have hlt : ∀ k, t.length ≤ k →
      decide (Text.readDigits 10 (t.filterMap CodePoint.digitValue?) < Nat.pow 10 k) = true := by
    intro k hk
    have hlength := Nat.le_trans (List.length_filterMap_le CodePoint.digitValue? t) hk
    exact decide_eq_true (Nat.lt_of_lt_of_le (Text.readDigits_lt hdigits)
      (Nat.pow_le_pow_right (by decide) hlength))
  have habs : (if negative then -n else n).natAbs =
      Text.readDigits 10 (t.filterMap CodePoint.digitValue?) := by
    cases negative <;> simp [n]
  rw [Number.fitsLimit, habs]
  exact hlt Number.digitLimit h

private theorem fitsLimit_of_readNumber? {cursor behind : Cursor} {n : Number}
    (h : readNumber? cursor = some (.ok (n, behind))) : FitsLimit (.number n) := by
  revert h
  fun_cases readNumber? cursor with
  | case1 =>
    intro h
    cases h
  | case2 =>
    intro h
    cases h
  | case3 negative body _ _ _ _ _ _ _ _ _ _ hlimit =>
    intro h
    cases h
    exact everywhere_number.mpr (fitsLimit_of_length (Nat.not_lt.mp hlimit) negative)
  | case4 =>
    intro h
    cases h
    exact everywhere_number.mpr trivial

private theorem fits_readScalar (cursor : Cursor) : Fits (readScalar cursor) := by
  fun_cases readScalar cursor with
  | case1 => exact .ok fitsLimit_null
  | case2 | case3 => exact .ok (everywhere_bool.mpr trivial)
  | case4 | case5 | case6 => exact .ok (everywhere_number.mpr trivial)
  | case7 | case8 => exact .error
  | case9 _ _ _ _ _ _ n behind h => exact .ok (fitsLimit_of_readNumber? h)

/-- The three readers keep within the limit at a depth, lists of what has been read included. -/
private structure ReadersFit (depth : Nat) : Prop where
  value : ∀ cursor, Fits (readValue depth cursor)
  members : ∀ cursor read, (∀ member ∈ read, FitsLimit member.2) →
    Fits (readMembers depth cursor read)
  items : ∀ cursor read, (∀ item ∈ read, FitsLimit item) → Fits (readItems depth cursor read)

private theorem fits_readValue (h : ReadersFit depth) (cursor : Cursor) :
    Fits (readValue (depth + 1) cursor) := by
  rw [readValue]
  split
  · exact .error
  split
  · split
    · exact .error
    · exact .ok fitsLimit_string
  split
  · dsimp only
    split
    · exact .ok (fitsLimit_object.mpr (by simp))
    · exact h.members _ [] (by simp)
  split
  · dsimp only
    split
    · exact .ok (fitsLimit_array.mpr (by simp))
    · exact h.items _ [] (by simp)
  · exact fits_readScalar cursor

private theorem fits_readMembers (h : ReadersFit depth) (cursor : Cursor)
    (read : List (Text × Json)) (hread : ∀ member ∈ read, FitsLimit member.2) :
    Fits (readMembers (depth + 1) cursor read) := by
  rw [readMembers]
  split
  · exact .error
  split
  · exact .error
  next key behind _ =>
  dsimp only
  split
  · exact .error
  split
  · exact .error
  next value behind hvalue =>
  have hmore : ∀ member ∈ (key, value) :: read, FitsLimit member.2 :=
    List.forall_mem_cons.mpr ⟨h.value _ _ _ hvalue, hread⟩
  split
  · refine .ok (fitsLimit_object.mpr fun field hfield ↦ ?_)
    exact hmore field (List.mem_reverse.mp (Fields.mem_ofList hfield))
  split
  · exact h.members _ _ hmore
  · exact .error

private theorem fits_readItems (h : ReadersFit depth) (cursor : Cursor) (read : List Json)
    (hread : ∀ item ∈ read, FitsLimit item) : Fits (readItems (depth + 1) cursor read) := by
  rw [readItems]
  split
  · exact .error
  next value behind hvalue =>
  have hmore : ∀ item ∈ value :: read, FitsLimit item :=
    List.forall_mem_cons.mpr ⟨h.value _ _ _ hvalue, hread⟩
  dsimp only
  split
  · exact .ok (fitsLimit_array.mpr fun item hitem ↦ hmore item (List.mem_reverse.mp hitem))
  split
  · exact h.items _ _ hmore
  · exact .error

private theorem readersFit (depth : Nat) : ReadersFit depth := by
  induction depth with
  | zero =>
    refine ⟨fun cursor ↦ ?_, fun cursor read _ ↦ ?_, fun cursor read _ ↦ ?_⟩
    · rw [readValue]
      exact .error
    · rw [readMembers]
      exact .error
    · rw [readItems]
      exact .error
  | succ depth ih => exact ⟨fits_readValue ih, fits_readMembers ih, fits_readItems ih⟩

/-- What is read of a text is within the limit. -/
theorem fitsLimit_of_read {t : Text} {value : Json} (h : read t = .ok value) : FitsLimit value := by
  have hread := (read_eq_ok_iff.mp h).2
  rw [readAll] at hread
  split at hread
  · cases hread
  next value' behind hvalue =>
  dsimp only at hread
  split at hread
  · cases hread
    exact (readersFit _).value _ _ _ hvalue
  · cases hread

end Reading

end StoryCatalog.Json
