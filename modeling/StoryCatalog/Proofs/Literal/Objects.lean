import StoryCatalog.Proofs.Literal.Plain
import StoryCatalog.Proofs.Story.Tags

/-!
# Object literals by key

The properties of an object literal are read in two ways: one of them is searched for by its key
(`Expression.get`), or all of them are put into fields (`Expression.plainFields`). Both agree on
which properties there are and on their values (`readersAgree_plainFields`).
-/

namespace StoryCatalog.Expression

variable {properties : List (Option Text × Expression)} {key : Text}

/-! ### The search for a property -/

theorem get_concat (property : Option Text × Expression) :
    get (properties ++ [property]) key =
      if property.1 = some key then property.2 else get properties key := List.foldl_concat ..

/-- The search finds the value of the last property with the key. -/
theorem get_of_last {front rest : List (Option Text × Expression)} {value : Expression}
    (hrest : ∀ property ∈ rest, property.1 ≠ some key) :
    get (front ++ (some key, value) :: rest) key = value := by
  induction rest using List.reverseRecOn with
  | nil => rw [get_concat, if_pos rfl]
  | append_singleton rest property ih =>
    rw [← List.cons_append, ← List.append_assoc, get_concat, if_neg (hrest property (by simp))]
    exact ih fun property hmem ↦ hrest property (List.mem_append_left _ hmem)

/-! ### The fields of all properties -/

theorem keys_plainProperties (properties : List (Option Text × Expression)) :
    Fields.keys (plainProperties properties) = properties.filterMap (·.1) := by
  induction properties with
  | nil => rfl
  | cons property rest ih =>
    obtain ⟨_ | key, value⟩ := property
    · exact ih
    · exact congrArg (key :: ·) ih

theorem plainProperties_append (front rest : List (Option Text × Expression)) :
    plainProperties (front ++ rest) = plainProperties front ++ plainProperties rest := by
  induction front with
  | nil => rfl
  | cons property more ih =>
    obtain ⟨_ | key, value⟩ := property
    · exact ih
    · exact congrArg ((key, plain value) :: ·) ih

/-- Under the key of a property stands the value of the one that the search finds. -/
theorem get?_ofList_plainProperties (h : key ∈ properties.filterMap (·.1)) :
    (Fields.ofList (plainProperties properties)).get? key = some (plain (get properties key)) := by
  induction properties using List.reverseRecOn with
  | nil => cases h
  | append_singleton properties property ih =>
    obtain ⟨name, value⟩ := property
    rw [plainProperties_append, Fields.ofList_append, get_concat]
    rw [List.filterMap_append, List.mem_append] at h
    cases name with
    | none =>
      rw [if_neg fun heq ↦ nomatch heq]
      exact ih (h.resolve_right List.not_mem_nil)
    | some name =>
      change Fields.get? (Fields.put _ name (plain value)) key = _
      by_cases hname : name = key
      · subst hname
        rw [if_pos rfl, Fields.get?_put_self]
      · have hold : key ∈ properties.filterMap (·.1) :=
          h.resolve_right fun hmem ↦ hname (List.mem_singleton.mp hmem).symm
        rw [if_neg fun heq ↦ hname (Option.some.inj heq), Fields.get?_put_of_ne _ _ hname, ih hold]

/-- Fields agree with the search for properties by their keys. -/
structure ReadersAgree (properties : List (Option Text × Expression)) (fields : Fields Json) :
    Prop where
  /-- There is a value under a key exactly if a property has this key. -/
  has_iff : ∀ key, fields.has key = true ↔ ∃ value, (some key, value) ∈ properties
  /-- The value is that of the expression which the search finds. -/
  get?_eq : ∀ key, fields.has key = true → fields.get? key = some (plain (get properties key))
  /-- Of several properties with one key the last one counts. -/
  get?_last : ∀ front key value rest, properties = front ++ (some key, value) :: rest →
    (∀ property ∈ rest, property.1 ≠ some key) → fields.get? key = some (plain value)
  /-- The keys stand in the order in which they first come; properties without a key are left
  out. -/
  keys_eq : fields.keys = dedupeTags (properties.filterMap (·.1))

theorem readersAgree_ofList (properties : List (Option Text × Expression)) :
    ReadersAgree properties (.ofList (plainProperties properties)) := by
  have hkeys : Fields.keys (.ofList (plainProperties properties)) =
      dedupeTags (properties.filterMap (·.1)) := by rw [Fields.keys_ofList, keys_plainProperties]
  have hhas : ∀ key, (Fields.ofList (plainProperties properties)).has key = true ↔
      key ∈ properties.filterMap (·.1) := by
    intro key
    rw [Fields.has, ← Fields.mem_keys_iff, hkeys, mem_dedupeTags]
  refine ⟨fun key ↦ ?_, fun key h ↦ get?_ofList_plainProperties ((hhas key).mp h), ?_, hkeys⟩
  · rw [hhas]
    simp
  · rintro front key value rest rfl hrest
    rw [get?_ofList_plainProperties (by simp), get_of_last hrest]

/-- The two readers of an object literal agree, also where assertions stand around it, and the plain
value of the literal is an object of the fields. No array at any depth of the plain value of an
expression holds null. -/
theorem readersAgree_plainFields :
    (∀ e, ReadersAgree e.unwrap.properties (plainFields e)) ∧
      (∀ properties, ReadersAgree properties (plainFields (.object properties)) ∧
        plain (.object properties) = .object (plainFields (.object properties))) ∧
      ∀ e, (plain e).Everywhere LacksNulls :=
  ⟨fun e ↦ readersAgree_ofList e.unwrap.properties,
    fun properties ↦ ⟨readersAgree_ofList properties, rfl⟩, everywhere_lacksNulls_plain⟩

end StoryCatalog.Expression
