import StoryCatalog.Json.Basic
import StoryCatalog.Proofs.Fields
import StoryCatalog.Proofs.Number.Rounding

/-!
# Properties of all parts of a value

A property is carried through a value by `Everywhere`: it holds of the value and of all values in
it. What comes out of a reader has distinct keys and numbers in their form (`IsProper`).
-/

namespace StoryCatalog

namespace Json

/-- A property of values holds of all if it passes from the members of an array or an object to the
whole. -/
@[elab_as_elim]
theorem induction {motive : Json → Prop} (null : motive .null) (bool : ∀ b, motive (.bool b))
    (number : ∀ n, motive (.number n)) (string : ∀ t, motive (.string t))
    (array : ∀ items, (∀ item ∈ items, motive item) → motive (.array items))
    (object : ∀ fields, (∀ field ∈ fields, motive field.2) → motive (.object fields))
    (value : Json) : motive value :=
  match value with
  | .null => null
  | .bool b => bool b
  | .number n => number n
  | .string t => string t
  | .array items => array items fun item _ ↦ induction null bool number string array object item
  | .object fields =>
    object fields fun field _ ↦ induction null bool number string array object field.2
termination_by sizeOf value
decreasing_by
  · next hitem =>
    have := List.sizeOf_lt_of_mem hitem
    simp only [Json.array.sizeOf_spec]
    omega
  · next hfield =>
    have := List.sizeOf_lt_of_mem hfield
    obtain ⟨key, value⟩ := field
    simp only [Json.object.sizeOf_spec, Prod.mk.sizeOf_spec] at this ⊢
    omega

mutual

/-- A value and all values in it. -/
def parts : Json → List Json
  | .array items => .array items :: partsOfItems items
  | .object fields => .object fields :: partsOfFields fields
  | value => [value]

/-- The parts of items. -/
def partsOfItems : List Json → List Json
  | [] => []
  | item :: rest => parts item ++ partsOfItems rest

/-- The parts of the values of fields. -/
def partsOfFields : List (Text × Json) → List Json
  | [] => []
  | (_, value) :: rest => parts value ++ partsOfFields rest

end

/-- A property holds of a value and of all values in it. -/
def Everywhere (P : Json → Prop) (value : Json) : Prop := ∀ part ∈ parts value, P part

variable {P Q : Json → Prop} {items : List Json} {fields : List (Text × Json)}

private theorem mem_partsOfItems {part : Json} :
    part ∈ partsOfItems items ↔ ∃ item ∈ items, part ∈ parts item := by
  induction items with
  | nil => simp [partsOfItems]
  | cons item rest ih => simp [partsOfItems, ih]

private theorem mem_partsOfFields {part : Json} :
    part ∈ partsOfFields fields ↔ ∃ field ∈ fields, part ∈ parts field.2 := by
  induction fields with
  | nil => simp [partsOfFields]
  | cons field rest ih => simp [partsOfFields, ih]

@[simp] theorem everywhere_null : Everywhere P .null ↔ P .null := by simp [Everywhere, parts]

@[simp] theorem everywhere_bool {b : Bool} : Everywhere P (.bool b) ↔ P (.bool b) := by
  simp [Everywhere, parts]

@[simp] theorem everywhere_number {n : Number} : Everywhere P (.number n) ↔ P (.number n) := by
  simp [Everywhere, parts]

@[simp] theorem everywhere_string {t : Text} : Everywhere P (.string t) ↔ P (.string t) := by
  simp [Everywhere, parts]

@[simp] theorem everywhere_array :
    Everywhere P (.array items) ↔ P (.array items) ∧ ∀ item ∈ items, Everywhere P item := by
  simp only [Everywhere, parts, List.forall_mem_cons, mem_partsOfItems]
  refine and_congr_right fun _ ↦ ⟨fun h item hitem part hpart ↦ h part ⟨item, hitem, hpart⟩, ?_⟩
  rintro h part ⟨item, hitem, hpart⟩
  exact h item hitem part hpart

@[simp] theorem everywhere_object :
    Everywhere P (.object fields) ↔
      P (.object fields) ∧ ∀ field ∈ fields, Everywhere P field.2 := by
  simp only [Everywhere, parts, List.forall_mem_cons, mem_partsOfFields]
  refine and_congr_right fun _ ↦ ⟨fun h field hfield part hpart ↦ h part ⟨field, hfield, hpart⟩, ?_⟩
  rintro h part ⟨field, hfield, hpart⟩
  exact h field hfield part hpart

theorem everywhere_field {value : Json} (h : Everywhere P value) (hnull : P .null) (key : Text) :
    Everywhere P (value.field key) := by
  unfold field
  split
  · next fields =>
    cases hget : Fields.get? fields key with
    | none => exact everywhere_null.mpr hnull
    | some found => exact (everywhere_object.mp h).2 _ (Fields.mem_of_get? hget)
  · exact everywhere_null.mpr hnull

theorem everywhere_follow {value : Json} (h : Everywhere P value) (hnull : P .null)
    (path : List Text) : Everywhere P (value.follow path) := by
  induction path generalizing value with
  | nil => exact h
  | cons key rest ih => exact ih (everywhere_field h hnull key)

/-! ### Values that a reader gives -/

/-- A value, its members left aside, is of a kind that readers give. -/
def IsProperPart : Json → Prop
  | .number (.float x) => x.IsCanonical
  | .object fields => (Fields.keys fields).Nodup
  | _ => True

/-- Keys are distinct and binary64 numbers are in their form, as in every value that is read. -/
def IsProper (value : Json) : Prop := Everywhere IsProperPart value

theorem isProper_object :
    IsProper (.object fields) ↔
      (Fields.keys fields).Nodup ∧ ∀ field ∈ fields, IsProper field.2 :=
  everywhere_object

theorem isProper_array : IsProper (.array items) ↔ ∀ item ∈ items, IsProper item := by
  rw [IsProper, everywhere_array]
  exact and_iff_right trivial

@[simp] theorem isProper_null : IsProper .null := everywhere_null.mpr trivial

@[simp] theorem isProper_bool {b : Bool} : IsProper (.bool b) := everywhere_bool.mpr trivial

@[simp] theorem isProper_string {t : Text} : IsProper (.string t) := everywhere_string.mpr trivial

@[simp] theorem isProper_int {n : ℤ} : IsProper (.number (.int n)) := everywhere_number.mpr trivial

theorem isProper_field {value : Json} (h : value.IsProper) (key : Text) :
    (value.field key).IsProper := everywhere_field h trivial key

theorem isProper_follow {value : Json} (h : value.IsProper) (path : List Text) :
    (value.follow path).IsProper := everywhere_follow h trivial path

/-- The fields of a value, as an object, are of the form of the value. -/
theorem isProper_fields {value : Json} (h : value.IsProper) : (object value.fields).IsProper := by
  cases value with
  | object fields => exact h
  | _ => exact isProper_object.mpr ⟨List.nodup_nil, by simp [Json.fields]⟩

theorem isProper_merge {more : Fields Json} (h : (object fields).IsProper)
    (hmore : (object more).IsProper) : (object (Fields.merge fields more)).IsProper := by
  rw [isProper_object] at h hmore ⊢
  refine ⟨Fields.nodup_keys_merge h.1 more, ?_⟩
  intro field hfield
  rcases Fields.mem_merge hfield with hmem | hmem
  · exact h.2 field hmem
  · exact hmore.2 field hmem

/-! ### Values that are written -/

/-- A value, its members left aside, has no integer beyond the digit limit. -/
def FitsPart : Json → Prop
  | .number (.int n) => Number.fitsLimit n = true
  | _ => True

/-- Every integer of a value is within the digit limit. -/
def FitsLimit (value : Json) : Prop := Everywhere FitsPart value

theorem fitsLimit_object :
    FitsLimit (.object fields) ↔ ∀ field ∈ fields, FitsLimit field.2 := by
  rw [FitsLimit, everywhere_object]
  exact and_iff_right trivial

theorem fitsLimit_array : FitsLimit (.array items) ↔ ∀ item ∈ items, FitsLimit item := by
  rw [FitsLimit, everywhere_array]
  exact and_iff_right trivial

@[simp] theorem fitsLimit_null : FitsLimit .null := everywhere_null.mpr trivial

@[simp] theorem fitsLimit_string {t : Text} : FitsLimit (.string t) := everywhere_string.mpr trivial

/-! ### Finite values -/

/-- A value, its members left aside, is no infinity and not NaN. -/
def IsFinitePart : Json → Prop
  | .number (.float x) => ∃ negative m e, x = .finite negative m e
  | _ => True

instance : DecidablePred IsFinitePart
  | .number (.float (.finite negative m e)) => isTrue ⟨negative, m, e, rfl⟩
  | .number (.float (.infinite _)) => isFalse nofun
  | .number (.float .nan) => isFalse nofun
  | .number (.int _) | .null | .bool _ | .string _ | .array _ | .object _ => isTrue trivial

/-- Every number of a value is finite. -/
def IsFinite (value : Json) : Prop := Everywhere IsFinitePart value

instance (value : Json) : Decidable value.IsFinite :=
  inferInstanceAs (Decidable (∀ part ∈ parts value, IsFinitePart part))

theorem isFinite_object : IsFinite (.object fields) ↔ ∀ field ∈ fields, IsFinite field.2 := by
  rw [IsFinite, everywhere_object]
  exact and_iff_right trivial

theorem isFinite_array : IsFinite (.array items) ↔ ∀ item ∈ items, IsFinite item := by
  rw [IsFinite, everywhere_array]
  exact and_iff_right trivial

@[simp] theorem isFinite_object_nil : IsFinite (.object []) := isFinite_object.mpr (by simp)

@[simp] theorem isFinite_object_cons {key : Text} {value : Json} :
    IsFinite (.object ((key, value) :: fields)) ↔ IsFinite value ∧ IsFinite (.object fields) := by
  rw [isFinite_object, isFinite_object, List.forall_mem_cons]

@[simp] theorem isFinite_null : IsFinite .null := everywhere_null.mpr trivial

@[simp] theorem isFinite_bool {b : Bool} : IsFinite (.bool b) := everywhere_bool.mpr trivial

@[simp] theorem isFinite_string {t : Text} : IsFinite (.string t) := everywhere_string.mpr trivial

@[simp] theorem isFinite_int {n : ℤ} : IsFinite (.number (.int n)) := everywhere_number.mpr trivial

theorem isFinite_float {x : Binary64} :
    IsFinite (.number (.float x)) ↔ ∃ negative m e, x = .finite negative m e := everywhere_number

/-! ### Texts of values -/

/-- The texts of a value itself, its members left aside. -/
def ownTexts : Json → List Text
  | .string t => [t]
  | .object fields => Fields.keys fields
  | _ => []

/-- A property holds of all code points of the texts and keys of a value. -/
def AllPoints (P : CodePoint → Prop) (value : Json) : Prop :=
  Everywhere (fun part ↦ ∀ t ∈ ownTexts part, ∀ c ∈ t, P c) value

theorem allPoints_object {R : CodePoint → Prop} :
    AllPoints R (.object fields) ↔
      (∀ key ∈ Fields.keys fields, ∀ c ∈ key, R c) ∧ ∀ field ∈ fields, AllPoints R field.2 :=
  everywhere_object

theorem allPoints_array {R : CodePoint → Prop} :
    AllPoints R (.array items) ↔ ∀ item ∈ items, AllPoints R item := by
  rw [AllPoints, everywhere_array]
  exact and_iff_right (by simp [ownTexts])

@[simp] theorem allPoints_string {R : CodePoint → Prop} {t : Text} :
    AllPoints R (.string t) ↔ ∀ c ∈ t, R c := by
  rw [AllPoints, everywhere_string]
  simp [ownTexts]

end Json

end StoryCatalog
