import Mathlib.Data.List.Induction
import StoryCatalog.Fields

/-!
# Fields with distinct keys

Fields with distinct keys come out of `Fields.ofList` as they are. Merging puts new keys behind the
known ones and new values in the place of old ones (`keys_merge`, `get?_merge`).
-/

namespace StoryCatalog

namespace Fields

variable {β γ : Type} {fields : Fields β}

@[simp] theorem keys_nil : keys ([] : Fields β) = [] := rfl

@[simp] theorem keys_cons {key : Text} {value : β} :
    keys ((key, value) :: fields) = key :: keys fields := rfl

@[simp] theorem keys_append {more : Fields β} :
    keys (fields ++ more) = keys fields ++ keys more := List.map_append

@[simp] theorem keys_mapValues {f : β → γ} : keys (mapValues f fields) = keys fields := by
  rw [keys, mapValues, List.map_map]
  rfl

/-- A value under a new key comes last. -/
theorem put_of_not_mem {key : Text} (h : key ∉ keys fields) (value : β) :
    put fields key value = fields ++ [(key, value)] := by
  induction fields with
  | nil => rfl
  | cons entry rest ih =>
    obtain ⟨k, v⟩ := entry
    rw [keys_cons, List.mem_cons, not_or] at h
    rw [put, if_neg fun heq ↦ h.1 heq.symm, ih h.2, List.cons_append]

/-- Fields with new and distinct keys come behind the others. -/
theorem merge_of_nodup {more : Fields β} (h : (keys (fields ++ more)).Nodup) :
    merge fields more = fields ++ more := by
  induction more generalizing fields with
  | nil => exact (List.append_nil fields).symm
  | cons entry rest ih =>
    obtain ⟨key, value⟩ := entry
    have hmem : key ∉ keys fields := by
      rw [keys_append, keys_cons, List.nodup_append] at h
      exact fun hmem ↦ h.2.2 key hmem key List.mem_cons_self rfl
    have hput : fields ++ (key, value) :: rest = put fields key value ++ rest := by
      rw [put_of_not_mem hmem, List.append_assoc, List.singleton_append]
    rw [hput] at h ⊢
    exact ih h

/-- Fields with distinct keys stay as they are. -/
theorem ofList_of_nodup (h : (keys fields).Nodup) : ofList fields = fields :=
  merge_of_nodup h

/-! ### Merged fields -/

/-- Keys that are merged in come behind the others, unless they are known. -/
theorem keys_merge {more : Fields β} (h : (keys more).Nodup) :
    keys (merge fields more) = keys fields ++ (keys more).filter (· ∉ keys fields) := by
  induction more generalizing fields with
  | nil => exact (List.append_nil _).symm
  | cons entry rest ih =>
    obtain ⟨key, value⟩ := entry
    rw [keys_cons, List.nodup_cons] at h
    have hstep : merge fields ((key, value) :: rest) = merge (put fields key value) rest := rfl
    rw [hstep, ih h.2, keys_put, keys_cons]
    by_cases hkey : key ∈ keys fields
    · rw [if_pos hkey, List.filter_cons_of_neg (by simp [hkey])]
    · have hrest : (keys rest).filter (· ∉ keys fields ++ [key]) =
          (keys rest).filter (· ∉ keys fields) := by
        refine List.filter_congr fun k hk ↦ ?_
        have hne : k ≠ key := fun heq ↦ h.1 (heq ▸ hk)
        simp [hne]
      rw [if_neg hkey, List.filter_cons_of_pos (by simp [hkey]), hrest, List.append_assoc,
        List.singleton_append]

/-- A key that is merged in has its new value. -/
theorem get?_merge (fields more : Fields β) (key : Text) :
    get? (merge fields more) key = ((ofList more).get? key).or (get? fields key) := by
  induction more using List.reverseRecOn with
  | nil => rfl
  | append_singleton more entry ih =>
    have hmerge : ∀ fields : Fields β,
        merge fields (more ++ [entry]) = put (merge fields more) entry.1 entry.2 :=
      fun _ ↦ List.foldl_append
    rw [ofList, hmerge, hmerge]
    by_cases hkey : entry.1 = key
    · subst hkey
      rw [get?_put_self, get?_put_self]
      rfl
    · rw [get?_put_of_ne _ _ hkey, get?_put_of_ne _ _ hkey]
      exact ih

/-- Lists one after another are merged one after another. -/
theorem ofList_append (pairs more : Fields β) :
    ofList (pairs ++ more) = merge (ofList pairs) more := List.foldl_append

/-! ### Where fields come from -/

theorem mem_of_get? {key : Text} {value : β} (h : get? fields key = some value) :
    (key, value) ∈ fields := by
  induction fields with
  | nil => cases h
  | cons entry rest ih =>
    obtain ⟨k, v⟩ := entry
    rw [get?] at h
    split at h
    · next hk =>
      cases h
      rw [hk]
      exact List.mem_cons_self
    · exact List.mem_cons_of_mem _ (ih h)

theorem mem_put {entry : Text × β} {key : Text} {value : β} (h : entry ∈ put fields key value) :
    entry ∈ fields ∨ entry = (key, value) := by
  induction fields with
  | nil => exact .inr (List.mem_singleton.mp h)
  | cons first rest ih =>
    obtain ⟨k, v⟩ := first
    rw [put] at h
    split at h
    · rcases List.mem_cons.mp h with rfl | hmem
      · exact .inr rfl
      · exact .inl (List.mem_cons_of_mem _ hmem)
    · rcases List.mem_cons.mp h with rfl | hmem
      · exact .inl List.mem_cons_self
      · exact (ih hmem).imp_left (List.mem_cons_of_mem _)

theorem mem_merge {entry : Text × β} {more : Fields β} (h : entry ∈ merge fields more) :
    entry ∈ fields ∨ entry ∈ more := by
  induction more generalizing fields with
  | nil => exact .inl h
  | cons first rest ih =>
    rcases ih h with hmem | hmem
    · exact (mem_put hmem).imp_right fun heq ↦ List.mem_cons.mpr (.inl heq)
    · exact .inr (List.mem_cons_of_mem _ hmem)

/-- Every field of a list's fields is in the list. -/
theorem mem_ofList {entry : Text × β} {pairs : List (Text × β)} (h : entry ∈ ofList pairs) :
    entry ∈ pairs :=
  (mem_merge h).resolve_left List.not_mem_nil

/-- A field among fields with distinct keys is found. -/
theorem get?_of_mem {key : Text} {value : β} (hnodup : (keys fields).Nodup)
    (hmem : (key, value) ∈ fields) : get? fields key = some value := by
  induction fields with
  | nil => cases hmem
  | cons entry rest ih =>
    obtain ⟨k, v⟩ := entry
    rw [keys_cons, List.nodup_cons] at hnodup
    rcases List.mem_cons.mp hmem with heq | hrest
    · cases heq
      rw [get?, if_pos rfl]
    · have hne : k ≠ key := fun heq ↦ hnodup.1 (heq ▸ List.mem_map_of_mem hrest)
      rw [get?, if_neg hne, ih hnodup.2 hrest]

/-! ### Renamed keys -/

/-- The fields with the value under one key put under another one. What stood there gives way. -/
def rename (fields : Fields β) (old new : Text) : Fields β :=
  (fields.filter fun field ↦ field.1 ≠ new).map fun field ↦
    (if field.1 = old then new else field.1, field.2)

theorem get?_filter_ne (dropped key : Text) :
    get? (fields.filter fun field ↦ field.1 ≠ dropped) key =
      if key = dropped then none else get? fields key := by
  induction fields with
  | nil => simp [get?]
  | cons entry rest ih =>
    obtain ⟨k, v⟩ := entry
    by_cases hk : k = dropped
    · rw [List.filter_cons_of_neg (by simp [hk]), ih]
      grind [get?]
    · rw [List.filter_cons_of_pos (by simp [hk]), get?, ih]
      grind [get?]

theorem get?_map_key {old new : Text} (h : new ∉ keys fields) (hne : old ≠ new) (key : Text) :
    get? (fields.map fun field ↦ (if field.1 = old then new else field.1, field.2)) key =
      if key = new then get? fields old else if key = old then none else get? fields key := by
  induction fields with
  | nil => simp [get?]
  | cons entry rest ih =>
    obtain ⟨k, v⟩ := entry
    rw [keys_cons, List.mem_cons, not_or] at h
    rw [List.map_cons, get?, ih h.2]
    grind [get?]

theorem get?_rename {old new : Text} (hne : old ≠ new) (key : Text) :
    get? (rename fields old new) key =
      if key = new then get? fields old else if key = old then none else get? fields key := by
  have hnew : new ∉ keys (fields.filter fun field ↦ field.1 ≠ new) := by
    rw [mem_keys_iff, get?_filter_ne, if_pos rfl]
    exact Bool.false_ne_true
  rw [rename, get?_map_key hnew hne, get?_filter_ne, get?_filter_ne, if_neg hne]
  grind

/-! ### Changed values -/

/-- A value changed with its key in view is found changed. -/
theorem get?_map_value (f : Text → β → γ) (key : Text) :
    get? (fields.map fun field ↦ (field.1, f field.1 field.2)) key =
      (get? fields key).map (f key) := by
  induction fields with
  | nil => rfl
  | cons entry rest ih =>
    obtain ⟨k, v⟩ := entry
    by_cases hk : k = key
    · simp [get?, hk]
    · simpa [get?, hk] using ih

theorem put_mapValues (f : β → γ) (key : Text) (value : β) :
    put (mapValues f fields) key (f value) = mapValues f (put fields key value) := by
  induction fields with
  | nil => rfl
  | cons entry rest ih =>
    obtain ⟨k, v⟩ := entry
    by_cases hk : k = key
    · simp [mapValues, put, hk]
    · simpa [mapValues, put, hk] using ih

theorem merge_mapValues (f : β → γ) (fields more : Fields β) :
    merge (mapValues f fields) (mapValues f more) = mapValues f (merge fields more) := by
  induction more generalizing fields with
  | nil => rfl
  | cons entry rest ih =>
    obtain ⟨key, value⟩ := entry
    have hstep : merge (mapValues f fields) (mapValues f ((key, value) :: rest)) =
        merge (put (mapValues f fields) key (f value)) (mapValues f rest) := rfl
    rw [hstep, put_mapValues, ih]
    rfl

/-- A value that stays is found as what it was turned into. -/
theorem get?_filterMap (h : (keys fields).Nodup) (f : Text → β → Option γ) (key : Text) :
    get? (fields.filterMap fun field ↦ (f field.1 field.2).map (field.1, ·)) key =
      (get? fields key).bind (f key) := by
  induction fields with
  | nil => rfl
  | cons entry rest ih =>
    obtain ⟨k, v⟩ := entry
    rw [keys_cons, List.nodup_cons] at h
    have hrest := ih h.2
    by_cases hk : k = key
    · have hnone : get? rest key = none := by
        rw [← Option.not_isSome_iff_eq_none, ← mem_keys_iff, ← hk]
        exact h.1
      cases hv : f k v <;> simp_all [get?]
    · cases hv : f k v <;> simp_all [get?]

/-- The keys of values that stay are those under which such a value is found. -/
theorem keys_filterMap (h : (keys fields).Nodup) (f : Text → β → Option γ) :
    keys (fields.filterMap fun field ↦ (f field.1 field.2).map (field.1, ·)) =
      (keys fields).filter fun key ↦ ((get? fields key).bind (f key)).isSome := by
  induction fields with
  | nil => rfl
  | cons entry rest ih =>
    obtain ⟨k, v⟩ := entry
    rw [keys_cons, List.nodup_cons] at h
    have hrest : (keys rest).filter (fun key ↦ ((get? rest key).bind (f key)).isSome) =
        (keys rest).filter fun key ↦ ((get? ((k, v) :: rest) key).bind (f key)).isSome := by
      refine List.filter_congr fun key hkey ↦ ?_
      have hne : k ≠ key := fun heq ↦ h.1 (heq ▸ hkey)
      rw [get?, if_neg hne]
    rw [keys_cons, List.filter_cons, ← hrest, ← ih h.2, get?, if_pos rfl]
    cases hv : f k v <;> simp [hv]

/-- Values may be changed before they are put together or after it. -/
theorem ofList_mapValues (f : β → γ) (pairs : Fields β) :
    ofList (mapValues f pairs) = mapValues f (ofList pairs) :=
  merge_mapValues f [] pairs

/-! ### Fields that are related key by key -/

section Related

variable {R : Text → β → γ → Prop} {others : Fields γ}

/-- Fields with the same keys in the same order, and with values that are related under their
keys. -/
def Related (R : Text → β → γ → Prop) (fields : Fields β) (others : Fields γ) : Prop :=
  List.Forall₂ (fun field other ↦ other.1 = field.1 ∧ R field.1 field.2 other.2) fields others

theorem Related.put {key : Text} {value : β} {other : γ} (h : Related R fields others)
    (hvalue : R key value other) :
    Related R (Fields.put fields key value) (Fields.put others key other) := by
  induction h with
  | nil => exact .cons ⟨rfl, hvalue⟩ .nil
  | @cons field found fields others hfield hrest ih =>
    obtain ⟨k, v⟩ := field
    obtain ⟨k', w⟩ := found
    obtain ⟨rfl, hfound⟩ := hfield
    by_cases hk : k' = key
    · rw [Fields.put, Fields.put, if_pos hk, if_pos hk]
      exact .cons ⟨rfl, hvalue⟩ hrest
    · rw [Fields.put, Fields.put, if_neg hk, if_neg hk]
      exact .cons ⟨rfl, hfound⟩ ih

theorem Related.merge {more : Fields β} {moreOthers : Fields γ} (h : Related R fields others)
    (hmore : Related R more moreOthers) :
    Related R (Fields.merge fields more) (Fields.merge others moreOthers) := by
  induction hmore generalizing fields others with
  | nil => exact h
  | @cons field found more moreOthers hfield _ ih =>
    obtain ⟨k, v⟩ := field
    obtain ⟨k', w⟩ := found
    obtain ⟨rfl, hfound⟩ := hfield
    exact ih (h.put hfound)

/-- Pairs that are related one by one make related fields. -/
theorem Related.ofList (h : Related R fields others) :
    Related R (Fields.ofList fields) (Fields.ofList others) :=
  Related.merge (.nil : Related R [] []) h

/-- What is found among the values is related to what is found among the others. -/
theorem Related.get? (h : Related R fields others) (key : Text) :
    Option.Rel (R key) (Fields.get? fields key) (Fields.get? others key) := by
  induction h with
  | nil => exact .none
  | @cons field found fields others hfield _ ih =>
    obtain ⟨k, v⟩ := field
    obtain ⟨k', w⟩ := found
    obtain ⟨rfl, hfound⟩ := hfield
    by_cases hk : k' = key
    · subst hk
      rw [Fields.get?, Fields.get?, if_pos rfl, if_pos rfl]
      exact .some hfound
    · rw [Fields.get?, Fields.get?, if_neg hk, if_neg hk]
      exact ih

end Related

end Fields

/-- Changing values twice is changing them once. -/
theorem OrderedMap.mapValues_mapValues {β γ δ : Type} (m : OrderedMap β) (f : β → γ) (g : γ → δ) :
    (m.mapValues f).mapValues g = m.mapValues fun value ↦ g (f value) :=
  ext (List.map_map ..)

/-- Changing values by a function that leaves each of them changes nothing. -/
theorem OrderedMap.mapValues_of_forall {β : Type} {m : OrderedMap β} {f : β → β}
    (h : ∀ value ∈ m.values, f value = value) : m.mapValues f = m := by
  have hfields : ∀ entry ∈ m.fields, (entry.1, f entry.2) = entry := by
    intro entry hentry
    rw [h entry.2 (List.mem_map_of_mem hentry)]
  exact ext ((List.map_congr_left hfields).trans (List.map_id' m.fields))

/-- A map is made again of its fields. -/
@[simp] theorem OrderedMap.ofList_fields {β : Type} (m : OrderedMap β) : ofList m.fields = m :=
  ext (Fields.ofList_of_nodup m.nodup_keys)

end StoryCatalog
