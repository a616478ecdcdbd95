import Mathlib.Data.List.Basic
import StoryCatalog.Proofs.Fields
import StoryCatalog.Story.Action

/-!
# Which actions a story has

The actions of a story are those of its arguments, in their order, and behind them those that only
its argument types mark. An argument type that marks an action tells all about it, the same as it
tells of a running story (`StoryAction.shows_derive`).
-/

namespace StoryCatalog

/-- A value other than `null` that is found under a key is the value of an object. -/
theorem Json.field_eq_iff {value v : Json} {key : Text} (h : v ≠ .null) :
    value.field key = v ↔ ∃ fields, value = .object fields ∧ Fields.get? fields key = some v := by
  cases value with
  | object fields =>
    rw [Json.field]
    cases hget : Fields.get? fields key <;> simp [hget, h.symm]
  | _ => simp [Json.field, h.symm]

namespace StoryAction

variable {args argTypes : OrderedMap Json} {key : Text} {value config : Json}

/-- The arguments have a handler under a key: its name begins with `on`, or it is a function. -/
def IsHandler (args : OrderedMap Json) (key : Text) : Prop :=
  ∃ value, args.get? key = some value ∧
    (("on" : Text) <+: key ∨ value = .string Expression.functionMark)

/-- The argument type of a key names an action or belongs to the events. -/
def IsMarked (argTypes : OrderedMap Json) (key : Text) : Prop :=
  ∃ fields, argTypes.get? key = some (.object fields) ∧
    ((∃ action, Fields.get? fields "action" = some action ∧ action.isTruthy = true) ∨
      ∃ table, Fields.get? fields "table" = some (.object table) ∧
        Fields.get? table "category" = some (.string "events"))

/-- What the argument type of a key says in its description, if that is a text. -/
def describedAs (argTypes : OrderedMap Json) (key : Text) : Text :=
  match argTypes.get? key with
  | some (.object fields) =>
    match Fields.get? fields "description" with
    | some (.string t) => t
    | _ => []
  | _ => []

/-! ### Marks of handlers and actions -/

theorem isHandler_iff_of_get? (h : args.get? key = some value) :
    IsHandler args key ↔ (isHandlerName key || isFunctionMark value) = true := by
  have hmark : isFunctionMark value = true ↔ value = .string Expression.functionMark := by
    cases value <;> simp [isFunctionMark]
  rw [Bool.or_eq_true, hmark, isHandlerName, Text.startsWith, List.isPrefixOf_iff_prefix]
  constructor
  · rintro ⟨found, hfound, hhandler⟩
    rw [h] at hfound
    cases hfound
    exact hhandler
  · exact fun hhandler ↦ ⟨value, h, hhandler⟩

theorem isFlagged_object_iff (fields : Fields Json) :
    isFlagged (.object fields) = true ↔
      (∃ action, Fields.get? fields "action" = some action ∧ action.isTruthy = true) ∨
        ∃ table, Fields.get? fields "table" = some (.object table) ∧
          Fields.get? table "category" = some (.string "events") := by
  have hnamed : ((Json.object fields).field "action").isTruthy = true ↔
      ∃ action, Fields.get? fields "action" = some action ∧ action.isTruthy = true := by
    rw [Json.field]
    cases Fields.get? fields "action" <;> simp [Json.isTruthy]
  have hfollow : (Json.object fields).follow ["table", "category"] = .string "events" ↔
      ∃ table, Fields.get? fields "table" = some (.object table) ∧
        Fields.get? table "category" = some (.string "events") := by
    simp only [Json.follow, List.foldl_cons, List.foldl_nil]
    rw [Json.field_eq_iff (by simp)]
    simp only [Json.field_eq_iff (show Json.object _ ≠ .null by simp), Json.object.injEq]
    grind
  rw [isFlagged, Json.isObject, Bool.true_and, Bool.or_eq_true]
  refine or_congr hnamed (Iff.trans ?_ hfollow)
  cases (Json.object fields).follow ["table", "category"] <;> simp

theorem isMarked_iff_of_get? (h : argTypes.get? key = some config) :
    IsMarked argTypes key ↔ isFlagged config = true := by
  constructor
  · rintro ⟨fields, hfields, hmarks⟩
    rw [h] at hfields
    cases hfields
    exact (isFlagged_object_iff fields).mpr hmarks
  · intro hflagged
    cases config with
    | object fields => exact ⟨fields, h, (isFlagged_object_iff fields).mp hflagged⟩
    | _ => cases hflagged

/-- The action of an argument, if that is one of a handler. -/
def argAction? (argTypes : Fields Json) (key : Text) (value : Json) : Option StoryAction :=
  if isHandlerName key || isFunctionMark value then some (ofArg key argTypes) else none

/-- The action of an argument type, if that marks one. -/
def typeAction? (key : Text) (config : Json) : Option StoryAction :=
  if isFlagged config then some (ofArgType key config) else none

theorem isHandler_iff (argTypes : Fields Json) :
    IsHandler args key ↔ ((args.get? key).bind (argAction? argTypes key)).isSome = true := by
  cases hget : args.get? key with
  | none => simp [IsHandler, hget]
  | some value =>
    rw [isHandler_iff_of_get? hget, Option.bind_some, argAction?]
    split <;> simp_all

theorem isMarked_iff :
    IsMarked argTypes key ↔ ((argTypes.get? key).bind (typeAction? key)).isSome = true := by
  cases hget : argTypes.get? key with
  | none => simp [IsMarked, hget]
  | some config =>
    rw [isMarked_iff_of_get? hget, Option.bind_some, typeAction?]
    split <;> simp_all

instance : DecidablePred (IsHandler args) := fun _ ↦ decidable_of_iff' _ (isHandler_iff [])

instance : DecidablePred (IsMarked argTypes) := fun _ ↦ decidable_of_iff' _ isMarked_iff

/-! ### Actions that are merged -/

/-- The actions that a rule makes of values under keys. -/
def actionsBy (rule : Text → Json → Option StoryAction) (m : OrderedMap Json) :
    Fields StoryAction :=
  m.fields.filterMap fun field ↦ (rule field.1 field.2).map (field.1, ·)

variable {rule : Text → Json → Option StoryAction} {m : OrderedMap Json}

theorem keys_actionsBy {p : Text → Prop} [DecidablePred p]
    (h : ∀ key, p key ↔ ((m.get? key).bind (rule key)).isSome = true) :
    (actionsBy rule m).keys = m.keys.filter (p ·) := by
  rw [actionsBy, Fields.keys_filterMap m.nodup_keys rule]
  refine List.filter_congr fun key _ ↦ ?_
  rw [Bool.eq_iff_iff, decide_eq_true_iff]
  exact (h key).symm

theorem get?_actionsBy (rule : Text → Json → Option StoryAction) (m : OrderedMap Json)
    (key : Text) : (actionsBy rule m).get? key = (m.get? key).bind (rule key) :=
  Fields.get?_filterMap m.nodup_keys rule key

theorem nodup_keys_actionsBy (rule : Text → Json → Option StoryAction) (m : OrderedMap Json) :
    (actionsBy rule m).keys.Nodup := by
  rw [actionsBy, Fields.keys_filterMap m.nodup_keys rule]
  exact m.nodup_keys.filter _

/-- The actions of argument types are merged into those of arguments. -/
theorem fields_derive (args argTypes : OrderedMap Json) :
    (derive args.fields argTypes.fields).fields =
      (actionsBy (argAction? argTypes.fields) args).merge (actionsBy typeAction? argTypes) := by
  have hlists : (derive args.fields argTypes.fields).fields =
      Fields.ofList (actionsBy (argAction? argTypes.fields) args ++
        actionsBy typeAction? argTypes) := by
    refine congrArg Fields.ofList (congrArg₂ (· ++ ·) ?_ ?_)
    · refine List.filterMap_congr fun field _ ↦ ?_
      dsimp only [argAction?]
      split <;> rfl
    · refine List.filterMap_congr fun field _ ↦ ?_
      dsimp only [typeAction?]
      split <;> rfl
  rw [hlists, Fields.ofList_append, Fields.ofList_of_nodup (nodup_keys_actionsBy _ _)]

theorem keys_derive (args argTypes : OrderedMap Json) :
    (derive args.fields argTypes.fields).keys =
      args.keys.filter (IsHandler args ·) ++
        argTypes.keys.filter fun key ↦ IsMarked argTypes key ∧ ¬ IsHandler args key := by
  have hmem : ∀ key, key ∈ args.keys.filter (IsHandler args ·) ↔ IsHandler args key := by
    intro key
    rw [List.mem_filter, decide_eq_true_iff, and_iff_right_iff_imp]
    rintro ⟨value, hget, -⟩
    exact (Fields.mem_keys_iff _ _).mpr (Option.isSome_of_eq_some hget)
  rw [OrderedMap.keys, fields_derive, Fields.keys_merge (nodup_keys_actionsBy _ _),
    keys_actionsBy fun key ↦ isHandler_iff argTypes.fields, keys_actionsBy fun key ↦ isMarked_iff,
    List.filter_filter]
  congr 1
  refine List.filter_congr fun key _ ↦ ?_
  simp only [hmem, Bool.decide_and]
  exact Bool.and_comm _ _

/-- The action of a key is that of its argument type, if that marks one, else that of its
argument. -/
theorem get?_derive (args argTypes : OrderedMap Json) (key : Text) :
    (derive args.fields argTypes.fields).get? key =
      ((argTypes.get? key).bind (typeAction? key)).or
        ((args.get? key).bind (argAction? argTypes.fields key)) := by
  rw [OrderedMap.get?, fields_derive, Fields.get?_merge,
    Fields.ofList_of_nodup (nodup_keys_actionsBy _ _), get?_actionsBy, get?_actionsBy]

/-- A running story's action of a key is that of its argument type, if that marks one or has the
name of a handler. -/
theorem get?_deriveFromTypes (argTypes : OrderedMap Json) (key : Text) :
    (deriveFromTypes argTypes.fields).get? key = (argTypes.get? key).bind fun config ↦
      if isHandlerName key || isFlagged config then some (ofArgType key config) else none := by
  let rule (key : Text) (config : Json) : Option StoryAction :=
    if isHandlerName key || isFlagged config then some (ofArgType key config) else none
  have hlist :
      (deriveFromTypes argTypes.fields).fields = Fields.ofList (actionsBy rule argTypes) := by
    refine congrArg Fields.ofList (List.filterMap_congr fun field _ ↦ ?_)
    dsimp only [rule]
    split <;> rfl
  rw [OrderedMap.get?, hlist, Fields.ofList_of_nodup (nodup_keys_actionsBy _ _), get?_actionsBy]

theorem description_ofArg (argTypes : OrderedMap Json) (key : Text) :
    (ofArg key argTypes.fields).description = describedAs argTypes key := by
  have hfollow : (Json.object argTypes.fields).follow [key, "description"] =
      ((argTypes.get? key).getD .null).field "description" := rfl
  rw [ofArg, hfollow, describedAs]
  cases argTypes.get? key with
  | none => rfl
  | some config =>
    cases config with
    | object fields =>
      dsimp only [Option.getD_some, Json.field]
      cases Fields.get? fields "description" with
      | none => rfl
      | some description => cases description <;> rfl
    | _ => rfl

/-! ### All actions of a story -/

/-- Actions show what the arguments and the argument types of a story tell: which keys have one, in
which order, and what it is. No ordered map has a key twice. -/
structure Shows (args argTypes : OrderedMap Json) (actions : OrderedMap StoryAction) : Prop where
  keys_eq : actions.keys = args.keys.filter (IsHandler args ·) ++
    argTypes.keys.filter fun key ↦ IsMarked argTypes key ∧ ¬ IsHandler args key
  name_eq : ∀ key action, actions.get? key = some action → action.name = key
  marked : ∀ key, IsMarked argTypes key → ∃ action, actions.get? key = some action ∧
    (deriveFromTypes argTypes.fields).get? key = some action
  unmarked : ∀ key action, actions.get? key = some action → ¬ IsMarked argTypes key →
    action.action = key ∧ action.description = describedAs argTypes key

/-- The actions of a story show what its arguments and argument types tell. -/
theorem shows_derive (args argTypes : OrderedMap Json) :
    Shows args argTypes (derive args.fields argTypes.fields) where
  keys_eq := keys_derive args argTypes
  name_eq := by
    intro key action haction
    rw [get?_derive, Option.or_eq_some_iff] at haction
    rcases haction with htype | ⟨-, harg⟩
    · obtain ⟨config, -, hrule⟩ := Option.bind_eq_some_iff.mp htype
      rw [typeAction?] at hrule
      split at hrule
      · rw [← Option.some.inj hrule]
        rfl
      · cases hrule
    · obtain ⟨value, -, hrule⟩ := Option.bind_eq_some_iff.mp harg
      rw [argAction?] at hrule
      split at hrule
      · rw [← Option.some.inj hrule]
        rfl
      · cases hrule
  marked := by
    intro key hmarked
    obtain ⟨fields, hget⟩ : ∃ fields, argTypes.get? key = some (.object fields) :=
      hmarked.imp fun _ h ↦ h.1
    have hflagged := (isMarked_iff_of_get? hget).mp hmarked
    refine ⟨ofArgType key (.object fields), ?_, ?_⟩
    · rw [get?_derive, hget, Option.bind_some, typeAction?, if_pos hflagged, Option.some_or]
    · rw [get?_deriveFromTypes, hget, Option.bind_some, hflagged, Bool.or_true, if_pos rfl]
  unmarked := by
    intro key action haction hmarked
    have hnone : (argTypes.get? key).bind (typeAction? key) = none := by
      rw [isMarked_iff] at hmarked
      exact Option.not_isSome_iff_eq_none.mp hmarked
    rw [get?_derive, hnone, Option.none_or] at haction
    obtain ⟨value, -, hrule⟩ := Option.bind_eq_some_iff.mp haction
    rw [argAction?] at hrule
    split at hrule
    · rw [← Option.some.inj hrule]
      exact ⟨rfl, description_ofArg argTypes key⟩
    · cases hrule

end StoryAction

end StoryCatalog
