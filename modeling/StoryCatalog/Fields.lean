import StoryCatalog.Text.CodePoint

/-!
# Fields in order of insertion

Fields associate keys with values and keep the place at which each key first came. Putting a value
under a known key replaces the value in its place. Main statements: what `put` does to look-ups
(`get?_put_self`, `get?_put_of_ne`) and to the keys (`keys_put`).
-/

namespace StoryCatalog

/-- Keys with their values, in the order in which the keys first came. -/
abbrev Fields (β : Type) := List (Text × β)

namespace Fields

variable {β : Type}

/-- The keys, in order. -/
def keys (fields : Fields β) : List Text := fields.map (·.1)

/-- The values, in the order of their keys. -/
def values (fields : Fields β) : List β := fields.map (·.2)

/-- The value under a key. -/
def get? : Fields β → Text → Option β
  | [], _ => none
  | (k, v) :: rest, key => if k = key then some v else get? rest key

/-- Whether a key is present. -/
def has (fields : Fields β) (key : Text) : Bool := (get? fields key).isSome

/-- The fields with a value under a key: in the key's place if it is known, else at the end. -/
def put : Fields β → Text → β → Fields β
  | [], key, value => [(key, value)]
  | (k, v) :: rest, key, value =>
    if k = key then (key, value) :: rest else (k, v) :: put rest key value

/-- The fields after more of them have been put in, one after another. -/
def merge (fields more : Fields β) : Fields β :=
  more.foldl (fun acc entry ↦ put acc entry.1 entry.2) fields

/-- The fields that a list of pairs gives: a repeated key keeps its first place and takes the last
value. -/
def ofList (pairs : List (Text × β)) : Fields β := merge [] pairs

/-- The values changed by a function, the keys kept. -/
def mapValues {γ : Type} (f : β → γ) (fields : Fields β) : Fields γ :=
  fields.map fun entry ↦ (entry.1, f entry.2)

/-- A value just put in is found. -/
@[simp] theorem get?_put_self (fields : Fields β) (key : Text) (value : β) :
    get? (put fields key value) key = some value := by
  induction fields with
  | nil => simp [put, get?]
  | cons entry rest ih =>
    obtain ⟨k, v⟩ := entry
    by_cases h : k = key <;> simp [put, get?, h, ih]

/-- Putting a value under one key leaves the others as they are. -/
theorem get?_put_of_ne (fields : Fields β) {key other : Text} (value : β) (h : key ≠ other) :
    get? (put fields key value) other = get? fields other := by
  induction fields with
  | nil => simp [put, get?, h]
  | cons entry rest ih =>
    obtain ⟨k, v⟩ := entry
    by_cases hk : k = key
    · subst hk
      simp [put, get?, h]
    · simp [put, get?, hk, ih]

/-- A key is known exactly if looking it up finds something. -/
theorem mem_keys_iff (fields : Fields β) (key : Text) :
    key ∈ keys fields ↔ (get? fields key).isSome := by
  induction fields with
  | nil => simp [keys, get?]
  | cons entry rest ih =>
    obtain ⟨k, v⟩ := entry
    by_cases hk : k = key
    · simp [keys, get?, hk]
    · have hne : key ≠ k := fun h ↦ hk h.symm
      simp only [keys, List.map_cons, List.mem_cons, hne, false_or, get?, hk, if_false]
      exact ih

/-- A known key keeps its place, a new one comes last. -/
theorem keys_put (fields : Fields β) (key : Text) (value : β) :
    keys (put fields key value) =
      if key ∈ keys fields then keys fields else keys fields ++ [key] := by
  induction fields with
  | nil => simp [keys, put]
  | cons entry rest ih =>
    obtain ⟨k, v⟩ := entry
    by_cases hk : k = key
    · simp [keys, put, hk]
    · have hne : key ≠ k := fun h ↦ hk h.symm
      have hput : put ((k, v) :: rest) key value = (k, v) :: put rest key value := by
        simp [put, hk]
      rw [hput]
      simp only [keys, List.map_cons, List.mem_cons, hne, false_or] at ih ⊢
      rw [ih]
      by_cases hmem : key ∈ List.map (fun entry ↦ entry.1) rest <;> simp [hmem]

/-- Putting keeps the keys distinct. -/
theorem nodup_keys_put {fields : Fields β} (h : (keys fields).Nodup) (key : Text) (value : β) :
    (keys (put fields key value)).Nodup := by
  rw [keys_put]
  split
  · exact h
  · rename_i hmem
    rw [List.nodup_append]
    refine ⟨h, by simp, ?_⟩
    intro a ha b hb
    rw [List.mem_singleton] at hb
    subst hb
    intro hab
    exact hmem (hab ▸ ha)

/-- Merging keeps the keys distinct. -/
theorem nodup_keys_merge {fields : Fields β} (h : (keys fields).Nodup) (more : Fields β) :
    (keys (merge fields more)).Nodup := by
  induction more generalizing fields with
  | nil => exact h
  | cons entry rest ih => exact ih (nodup_keys_put h entry.1 entry.2)

/-- The keys of fields read from a list are distinct. -/
theorem nodup_keys_ofList (pairs : List (Text × β)) : (keys (ofList pairs)).Nodup :=
  nodup_keys_merge (by simp [keys]) pairs

end Fields

/-- Fields whose keys are known to be distinct. -/
structure OrderedMap (β : Type) where
  fields : Fields β
  nodup_keys : fields.keys.Nodup

namespace OrderedMap

variable {β : Type}

instance : Inhabited (OrderedMap β) := ⟨⟨[], by simp [Fields.keys]⟩⟩

/-- The map without entries. -/
def empty : OrderedMap β := ⟨[], by simp [Fields.keys]⟩

/-- The keys, in order of first insertion. -/
def keys (m : OrderedMap β) : List Text := m.fields.keys

/-- The values, in the order of their keys. -/
def values (m : OrderedMap β) : List β := m.fields.values

/-- The count of entries. -/
def size (m : OrderedMap β) : Nat := m.fields.length

/-- The value under a key. -/
def get? (m : OrderedMap β) (key : Text) : Option β := m.fields.get? key

/-- The map with a value under a key. -/
def insert (m : OrderedMap β) (key : Text) (value : β) : OrderedMap β :=
  ⟨m.fields.put key value, Fields.nodup_keys_put m.nodup_keys key value⟩

/-- The map of a list of pairs; of a repeated key the first place and the last value count. -/
def ofList (pairs : List (Text × β)) : OrderedMap β :=
  ⟨Fields.ofList pairs, Fields.nodup_keys_ofList pairs⟩

/-- The values changed by a function, the keys kept. -/
def mapValues {γ : Type} (f : β → γ) (m : OrderedMap β) : OrderedMap γ :=
  ⟨m.fields.mapValues f, by
    have h := m.nodup_keys
    simpa [Fields.keys, Fields.mapValues, Function.comp_def] using h⟩

/-- Maps are equal as soon as their fields are. -/
theorem ext {m n : OrderedMap β} (h : m.fields = n.fields) : m = n := by
  cases m
  cases n
  simp_all

/-- A value just inserted is found. -/
@[simp] theorem get?_insert_self (m : OrderedMap β) (key : Text) (value : β) :
    (m.insert key value).get? key = some value := Fields.get?_put_self ..

/-- Inserting under one key leaves the others as they are. -/
theorem get?_insert_of_ne (m : OrderedMap β) {key other : Text} (value : β) (h : key ≠ other) :
    (m.insert key value).get? other = m.get? other := Fields.get?_put_of_ne _ value h

end OrderedMap

end StoryCatalog
