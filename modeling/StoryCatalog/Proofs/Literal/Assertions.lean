import Mathlib.Logic.Relation
import StoryCatalog.Proofs.Literal.Plain

/-!
# Expressions with and without assertions

Type assertions carry nothing that story metadata is made of. `Expression.erase` takes them away at
every depth, `Expression.Wraps` puts more of them around sub-expressions; an expression and one that
wraps it have the same erasure (`Wraps.erase_eq`). All readers of expressions give the same for an
expression and its erasure.
-/

namespace StoryCatalog.Expression

variable {e e' : Expression} {properties : List (Option Text × Expression)}

/-! ### Erasing -/

mutual

/-- The expression without assertions, at every depth. -/
def erase : Expression → Expression
  | .assertion _ operand => erase operand
  | .object properties => .object (eraseProperties properties)
  | .array elements => .array (eraseElements elements)
  | e => e

/-- The elements without assertions. -/
def eraseElements : List Expression → List Expression
  | [] => []
  | element :: rest => erase element :: eraseElements rest

/-- The properties with values without assertions. -/
def eraseProperties : List (Option Text × Expression) → List (Option Text × Expression)
  | [] => []
  | (key, value) :: rest => (key, erase value) :: eraseProperties rest

end

@[simp] theorem erase_assertion (kind : Text) (operand : Expression) :
    erase (.assertion kind operand) = erase operand := by
  rw [erase]

theorem eraseElements_append (before after : List Expression) :
    eraseElements (before ++ after) = eraseElements before ++ eraseElements after := by
  induction before with
  | nil => simp [eraseElements]
  | cons element rest ih => simp [eraseElements, ih]

theorem eraseProperties_append (before after : List (Option Text × Expression)) :
    eraseProperties (before ++ after) = eraseProperties before ++ eraseProperties after := by
  induction before with
  | nil => simp [eraseProperties]
  | cons property rest ih =>
    obtain ⟨key, value⟩ := property
    simp [eraseProperties, ih]

mutual

/-- What is erased holds no assertion any more. -/
theorem erase_erase : (e : Expression) → e.erase.erase = e.erase
  | .assertion _ operand => by rw [erase_assertion, erase_erase operand]
  | .object properties => by simp only [erase, eraseProperties_erase properties]
  | .array elements => by simp only [erase, eraseElements_erase elements]
  | .absent => rfl
  | .string _ => rfl
  | .number _ => rfl
  | .boolean _ => rfl
  | .null => rfl
  | .identifier _ => rfl
  | .function _ => rfl
  | .markup _ => rfl
  | .unresolved _ _ => rfl

theorem eraseElements_erase : (elements : List Expression) →
    eraseElements (eraseElements elements) = eraseElements elements
  | [] => rfl
  | element :: rest => by simp only [eraseElements, erase_erase element, eraseElements_erase rest]

theorem eraseProperties_erase : (properties : List (Option Text × Expression)) →
    eraseProperties (eraseProperties properties) = eraseProperties properties
  | [] => rfl
  | (key, value) :: rest => by
    simp only [eraseProperties, erase_erase value, eraseProperties_erase rest]

end

/-! ### Readers -/

mutual

/-- The plain value of an expression does not depend on assertions. -/
@[simp] theorem plain_erase : (e : Expression) → e.erase.plain = e.plain
  | .assertion _ operand => by rw [erase_assertion, plain, plain_erase operand]
  | .object properties => by rw [erase, plain, plain, plainProperties_erase properties]
  | .array elements => by rw [erase, plain, plain, plainElements_erase elements]
  | .absent => rfl
  | .string _ => rfl
  | .number _ => rfl
  | .boolean _ => rfl
  | .null => rfl
  | .identifier _ => rfl
  | .function _ => rfl
  | .markup _ => rfl
  | .unresolved _ _ => rfl

@[simp] theorem plainElements_erase : (elements : List Expression) →
    plainElements (eraseElements elements) = plainElements elements
  | [] => rfl
  | element :: rest => by
    rw [eraseElements, plainElements, plainElements, plain_erase element, plainElements_erase rest]

@[simp] theorem plainProperties_erase : (properties : List (Option Text × Expression)) →
    plainProperties (eraseProperties properties) = plainProperties properties
  | [] => rfl
  | (none, value) :: rest => by
    rw [eraseProperties, plainProperties, plainProperties, plainProperties_erase rest]
  | (some key, value) :: rest => by
    rw [eraseProperties, plainProperties, plainProperties, plain_erase value,
      plainProperties_erase rest]

end

theorem unwrap_ne_assertion (e : Expression) (kind : Text) (operand : Expression) :
    e.unwrap ≠ .assertion kind operand := by
  fun_induction unwrap e with
  | case1 _ _ ih => exact ih
  | case2 e hnot => exact hnot kind operand

/-- Taking away the outermost assertions and taking away all of them can change places. -/
theorem unwrap_erase (e : Expression) : e.erase.unwrap = e.unwrap.erase := by
  fun_induction unwrap e with
  | case1 kind operand ih => rw [erase_assertion, ih]
  | case2 e hnot =>
    cases e with
    | assertion kind operand => exact absurd rfl (hnot kind operand)
    | _ => simp [erase, unwrap]

/-- Apart from assertions, an expression and its erasure are of one form. -/
theorem properties_unwrap_erase (e : Expression) :
    e.erase.unwrap.properties = eraseProperties e.unwrap.properties := by
  rw [unwrap_erase]
  cases h : e.unwrap with
  | assertion kind operand => exact absurd h (unwrap_ne_assertion e kind operand)
  | _ => rfl

@[simp] theorem plainFields_erase (e : Expression) : e.erase.plainFields = e.plainFields := by
  rw [plainFields, plainFields, properties_unwrap_erase, plainProperties_erase]

@[simp] theorem plainString?_erase (e : Expression) : e.erase.plainString? = e.plainString? := by
  rw [plainString?, plainString?, unwrap_erase]
  cases h : e.unwrap with
  | assertion kind operand => exact absurd h (unwrap_ne_assertion e kind operand)
  | _ => rfl

/-- What is chosen of each element without regard to assertions is chosen of all of them so. -/
private theorem filterMap_eraseElements {β : Type} {choose : Expression → Option β}
    (hchoose : ∀ e : Expression, choose e.erase = choose e) (elements : List Expression) :
    (eraseElements elements).filterMap choose = elements.filterMap choose := by
  induction elements with
  | nil => rfl
  | cons element rest ih =>
    rw [eraseElements, List.filterMap_cons, List.filterMap_cons, hchoose, ih]

@[simp] theorem plainTexts_erase (e : Expression) : e.erase.plainTexts = e.plainTexts := by
  rw [plainTexts, plainTexts, unwrap_erase]
  cases h : e.unwrap with
  | assertion kind operand => exact absurd h (unwrap_ne_assertion e kind operand)
  | array elements =>
    apply filterMap_eraseElements
    intro element
    rw [plain_erase]
  | _ => rfl

/-- The property under a key is erased together with the others. -/
theorem get_eraseProperties (properties : List (Option Text × Expression)) (key : Text) :
    get (eraseProperties properties) key = (get properties key).erase := by
  have hfold : ∀ found : Expression, (eraseProperties properties).foldl (fun found property ↦
      if property.1 = some key then property.2 else found) found.erase =
        (properties.foldl (fun found property ↦
          if property.1 = some key then property.2 else found) found).erase := by
    induction properties with
    | nil => exact fun _ ↦ rfl
    | cons property rest ih =>
      intro found
      rw [eraseProperties, List.foldl_cons, List.foldl_cons, ← ih]
      dsimp only
      split <;> rfl
  exact hfold .absent

/-- An expression is erased to nothing exactly if nothing stands in its outermost assertions. -/
theorem isAbsent_erase (e : Expression) : e.erase.isAbsent = e.unwrap.isAbsent := by
  fun_induction unwrap e with
  | case1 kind operand ih => rw [erase_assertion, ih]
  | case2 e hnot =>
    cases e with
    | assertion kind operand => exact absurd rfl (hnot kind operand)
    | _ => rfl

/-! ### Wrapping -/

/-- One expression comes of another by one more assertion, around all of it or around a part. An
assertion stands around something. -/
inductive WrapsOnce : Expression → Expression → Prop
  | here (kind : Text) {e : Expression} (h : e.isAbsent = false) : WrapsOnce e (.assertion kind e)
  | operand (kind : Text) {e e' : Expression} (h : WrapsOnce e e') :
    WrapsOnce (.assertion kind e) (.assertion kind e')
  | element (before after : List Expression) {e e' : Expression} (h : WrapsOnce e e') :
    WrapsOnce (.array (before ++ e :: after)) (.array (before ++ e' :: after))
  | property (before after : List (Option Text × Expression)) (key : Option Text)
    {e e' : Expression} (h : WrapsOnce e e') :
    WrapsOnce (.object (before ++ (key, e) :: after)) (.object (before ++ (key, e') :: after))

/-- One expression comes of another by any number of assertions around any of its parts. -/
def Wraps : Expression → Expression → Prop := Relation.ReflTransGen WrapsOnce

namespace WrapsOnce

theorem erase_eq (h : WrapsOnce e e') : e'.erase = e.erase := by
  induction h with
  | here kind _ => rw [erase_assertion]
  | operand kind _ ih => rw [erase_assertion, erase_assertion, ih]
  | element before after _ ih =>
    rw [erase, erase, eraseElements_append, eraseElements_append, eraseElements, eraseElements, ih]
  | property before after key _ ih =>
    rw [erase, erase, eraseProperties_append, eraseProperties_append, eraseProperties,
      eraseProperties, ih]

theorem isAbsent_eq (h : WrapsOnce e e') : e'.isAbsent = e.isAbsent := by
  cases h with
  | here kind h => rw [h]; rfl
  | _ => rfl

end WrapsOnce

namespace Wraps

theorem refl (e : Expression) : Wraps e e := Relation.ReflTransGen.refl

/-- An expression with more assertions has the same erasure. -/
theorem erase_eq (h : Wraps e e') : e'.erase = e.erase := by
  induction h with
  | refl => rfl
  | tail _ hstep ih => rw [hstep.erase_eq, ih]

/-- Assertions neither make an expression nor take one away. -/
theorem isAbsent_eq (h : Wraps e e') : e'.isAbsent = e.isAbsent := by
  induction h with
  | refl => rfl
  | tail _ hstep ih => rw [hstep.isAbsent_eq, ih]

end Wraps

end StoryCatalog.Expression
