import StoryCatalog.Literal.Plain
import StoryCatalog.Proofs.Fields
import StoryCatalog.Proofs.Json.Value
import StoryCatalog.Proofs.Literal.Module

/-!
# The plain values of story files

Plain values are made of scalars, arrays without nulls and objects with distinct keys
(`Expression.everywhere_plain`). The numbers of an expression that is read off a tree are in their
form (`Expression.isProper_ofTree`), so the plain value of an expression is one that a reader of
documents gives too (`Expression.isProper_plain`). This is carried from trees to all expressions of
a story file.
-/

namespace StoryCatalog

/-- What a reader comes to, if it comes to anything, has a property. -/
def Yields {ε α : Type} (P : α → Prop) (x : Except ε α) : Prop := ∀ a, x = .ok a → P a

namespace Yields

variable {ε α β : Type} {P : α → Prop} {Q : β → Prop} {x : Except ε α}

theorem ok {a : α} (h : P a) : Yields P (.ok a : Except ε α) := by
  intro b hb
  cases hb
  exact h

theorem map {f : α → β} (hx : Yields P x) (hf : ∀ a, P a → Q (f a)) : Yields Q (x.map f) := by
  intro b hb
  cases x with
  | error e => cases hb
  | ok a =>
    cases hb
    exact hf a (hx a rfl)

theorem bind {f : α → Except ε β} (hx : Yields P x) (hf : ∀ a, P a → Yields Q (f a)) :
    Yields Q (x >>= f) := by
  intro b hb
  cases x with
  | error e => cases hb
  | ok a => exact hf a (hx a rfl) b hb

/-- What follows does not depend on a property of what comes first. -/
theorem bind_any {f : α → Except ε β} (hf : ∀ a, Yields Q (f a)) : Yields Q (x >>= f) :=
  bind (P := fun _ ↦ True) (fun _ _ ↦ trivial) fun a _ ↦ hf a

theorem mapM {items : List β} {f : β → Except ε α} (h : ∀ b ∈ items, Yields P (f b)) :
    Yields (fun results ↦ ∀ a ∈ results, P a) (items.mapM f) := by
  induction items with
  | nil => exact ok (by simp)
  | cons b rest ih =>
    obtain ⟨hb, hrest⟩ := List.forall_mem_cons.mp h
    rw [List.mapM_cons]
    refine hb.bind fun a ha ↦ (ih hrest).bind fun results hresults ↦ ok ?_
    exact List.forall_mem_cons.mpr ⟨ha, hresults⟩

end Yields

namespace Expression

open Script

/-! ### Expressions with numbers in their form -/

mutual

/-- The numbers of an expression. -/
def numbers : Expression → List Number
  | .number n => [n]
  | .object properties => numbersOfProperties properties
  | .array elements => numbersOfElements elements
  | .assertion _ operand => numbers operand
  | _ => []

/-- The numbers of elements. -/
def numbersOfElements : List Expression → List Number
  | [] => []
  | element :: rest => numbers element ++ numbersOfElements rest

/-- The numbers of properties. -/
def numbersOfProperties : List (Option Text × Expression) → List Number
  | [] => []
  | (_, value) :: rest => numbers value ++ numbersOfProperties rest

end

/-- The binary64 numbers of an expression are in their form. -/
def IsProper (e : Expression) : Prop := ∀ x, Number.float x ∈ e.numbers → x.IsCanonical

variable {e : Expression} {elements : List Expression}
  {properties : List (Option Text × Expression)}

theorem isProper_of_numbers_eq_nil (h : e.numbers = []) : e.IsProper := by
  intro x hx
  rw [h] at hx
  cases hx

theorem isProper_number {n : Number} :
    IsProper (.number n) ↔ ∀ x, n = .float x → x.IsCanonical := by
  simp only [IsProper, numbers, List.mem_singleton, eq_comm]

theorem isProper_array : IsProper (.array elements) ↔ ∀ element ∈ elements, element.IsProper := by
  unfold IsProper
  rw [numbers]
  induction elements with
  | nil => simp [numbersOfElements]
  | cons element rest ih =>
    rw [List.forall_mem_cons, ← ih, numbersOfElements]
    simp only [List.mem_append, or_imp, forall_and]

theorem isProper_object :
    IsProper (.object properties) ↔ ∀ property ∈ properties, property.2.IsProper := by
  unfold IsProper
  rw [numbers]
  induction properties with
  | nil => simp [numbersOfProperties]
  | cons property rest ih =>
    rw [List.forall_mem_cons, ← ih, numbersOfProperties]
    simp only [List.mem_append, or_imp, forall_and]

theorem isProper_unwrap (h : e.IsProper) : e.unwrap.IsProper := by
  fun_induction unwrap e with
  | case1 kind operand ih => exact ih h
  | case2 e hnot => exact h

theorem isProper_properties (h : e.IsProper) : ∀ property ∈ e.properties, property.2.IsProper := by
  unfold properties
  split
  · exact isProper_object.mp h
  · simp

theorem isProper_get (h : ∀ property ∈ properties, property.2.IsProper) (key : Text) :
    (get properties key).IsProper := by
  have hfold : ∀ found : Expression, found.IsProper → (properties.foldl (fun found property ↦
      if property.1 = some key then property.2 else found) found).IsProper := by
    induction properties with
    | nil => exact fun _ hfound ↦ hfound
    | cons property rest ih =>
      obtain ⟨hproperty, hrest⟩ := List.forall_mem_cons.mp h
      intro found hfound
      refine ih hrest _ ?_
      dsimp only
      split
      · exact hproperty
      · exact hfound
  exact hfold .absent (isProper_of_numbers_eq_nil rfl)

/-! ### Trees -/

private theorem isProper_numeral {spelling : Text} {n : Number}
    (h : Numeral.read? spelling = some n) : (Expression.number n).IsProper := by
  rw [isProper_number]
  rintro x rfl
  exact Numeral.isCanonical_of_read? h

private theorem isProper_signed {operator : Text} {n signed : Number}
    (h : (Expression.number n).IsProper) (hsigned : signed? operator n = some signed) :
    (Expression.number signed).IsProper := by
  unfold signed? at hsigned
  split at hsigned
  · cases hsigned
    rw [isProper_number] at h ⊢
    intro x hx
    cases n with
    | int n => cases hx
    | float y =>
      cases hx
      exact Binary64.isCanonical_neg (h y rfl)
  · split at hsigned
    · cases hsigned
      exact h
    · cases hsigned

mutual

/-- The expressions of trees have their numbers in their form. -/
theorem isProper_ofTree : (tree : Tree) → Yields IsProper (ofTree tree)
  | .string pieces => Yields.map (P := fun _ ↦ True) (fun _ _ ↦ trivial) fun _ _ ↦
      isProper_of_numbers_eq_nil rfl
  | .template body [] => Yields.map (P := fun _ ↦ True) (fun _ _ ↦ trivial) fun _ _ ↦
      isProper_of_numbers_eq_nil rfl
  | .template _ (_ :: _) => .ok (isProper_of_numbers_eq_nil rfl)
  | .number spelling => by
    refine .ok ?_
    split
    · next h => exact isProper_numeral h
    · exact isProper_of_numbers_eq_nil rfl
  | .boolean _ => .ok (isProper_of_numbers_eq_nil rfl)
  | .null => .ok (isProper_of_numbers_eq_nil rfl)
  | .identifier _ => .ok (isProper_of_numbers_eq_nil rfl)
  | .object members => (isProper_ofMembers members).map fun _ ↦ isProper_object.mpr
  | .array elements => (isProper_ofTrees elements).map fun _ ↦ isProper_array.mpr
  | .function _ _ => .ok (isProper_of_numbers_eq_nil rfl)
  | .markup _ _ => .ok (isProper_of_numbers_eq_nil rfl)
  | .assertion _ operand _ => (isProper_ofTree operand).map fun _ h ↦ h
  | .unary operator operand text => by
    refine .ok ?_
    split
    · next n h =>
      split at h
      · next spelling =>
        obtain ⟨unsigned, hread, hsigned⟩ := Option.bind_eq_some_iff.mp h
        exact isProper_signed (isProper_numeral hread) hsigned
      · cases h
    · exact isProper_of_numbers_eq_nil rfl
  | .property _ _ _ => .ok (isProper_of_numbers_eq_nil rfl)
  | .assignment _ _ _ => .ok (isProper_of_numbers_eq_nil rfl)
  | .other _ _ _ => .ok (isProper_of_numbers_eq_nil rfl)

theorem isProper_ofTrees :
    (trees : List Tree) → Yields (fun es ↦ ∀ e ∈ es, IsProper e) (ofTrees trees)
  | [] => .ok (by simp)
  | tree :: rest => (isProper_ofTree tree).bind fun _ h ↦ (isProper_ofTrees rest).bind fun _ hrest ↦
      .ok (List.forall_mem_cons.mpr ⟨h, hrest⟩)

theorem isProper_ofMembers :
    (members : List Member) → Yields (fun ps ↦ ∀ p ∈ ps, IsProper p.2) (ofMembers members)
  | [] => .ok (by simp)
  | .pair _ value :: rest => .bind_any fun _ ↦ (isProper_ofTree value).bind fun _ h ↦
      (isProper_ofMembers rest).bind fun _ hrest ↦ .ok (List.forall_mem_cons.mpr ⟨h, hrest⟩)
  | .shorthand _ :: rest => (isProper_ofMembers rest).bind fun _ hrest ↦
      .ok (List.forall_mem_cons.mpr ⟨isProper_of_numbers_eq_nil rfl, hrest⟩)
  | .method _ _ :: rest => .bind_any fun _ ↦ (isProper_ofMembers rest).bind fun _ hrest ↦
      .ok (List.forall_mem_cons.mpr ⟨isProper_of_numbers_eq_nil rfl, hrest⟩)
  | .spread _ :: rest => (isProper_ofMembers rest).bind fun _ hrest ↦
      .ok (List.forall_mem_cons.mpr ⟨isProper_of_numbers_eq_nil rfl, hrest⟩)

end

/-! ### Plain values -/

/-- An array, its items left aside, holds no null. -/
def LacksNulls : Json → Prop
  | .array items => .null ∉ items
  | _ => True

/-- A property holds of whatever plain values are made of, numbers apart: arrays without nulls and
objects with distinct keys among them. -/
structure HoldsOfPlain (P : Json → Prop) : Prop where
  null : P .null
  bool : ∀ b, P (.bool b)
  string : ∀ t, P (.string t)
  array : ∀ items, LacksNulls (.array items) → P (.array items)
  object : ∀ fields, (Fields.keys fields).Nodup → P (.object fields)

variable {P : Json → Prop}

theorem lacksNulls_plainElements (elements : List Expression) :
    LacksNulls (.array (plainElements elements)) := by
  induction elements with
  | nil => exact List.not_mem_nil
  | cons element rest ih =>
    rw [plainElements]
    split
    · exact ih
    · next hvalue =>
      refine List.not_mem_cons_of_ne_of_not_mem (fun hnull ↦ hvalue ?_) ih
      rw [← hnull]
      rfl

private theorem HoldsOfPlain.ofList (hP : HoldsOfPlain P) {pairs : List (Text × Json)}
    (h : ∀ field ∈ pairs, field.2.Everywhere P) :
    (Json.object (Fields.ofList pairs)).Everywhere P :=
  Json.everywhere_object.mpr ⟨hP.object _ (Fields.nodup_keys_ofList pairs),
    fun field hfield ↦ h field (Fields.mem_ofList hfield)⟩

mutual

/-- Such a property holds everywhere in the plain value of an expression, if it holds of its
numbers. -/
theorem everywhere_plain (hP : HoldsOfPlain P) :
    (e : Expression) → (∀ n ∈ e.numbers, P (.number n)) → (plain e).Everywhere P
  | .absent, _ => Json.everywhere_null.mpr hP.null
  | .string t, _ => Json.everywhere_string.mpr (hP.string t)
  | .number n, h => Json.everywhere_number.mpr (h n (List.mem_singleton_self n))
  | .boolean b, _ => Json.everywhere_bool.mpr (hP.bool b)
  | .null, _ => Json.everywhere_null.mpr hP.null
  | .identifier name, _ => Json.everywhere_string.mpr (hP.string name)
  | .object properties, h => hP.ofList (everywhere_plainProperties hP properties h)
  | .array elements, h =>
    Json.everywhere_array.mpr
      ⟨hP.array _ (lacksNulls_plainElements elements), everywhere_plainElements hP elements h⟩
  | .function _, _ => Json.everywhere_string.mpr (hP.string functionMark)
  | .markup _, _ => Json.everywhere_string.mpr (hP.string markupMark)
  | .assertion _ operand, h => everywhere_plain hP operand h
  | .unresolved _ _, _ => Json.everywhere_null.mpr hP.null

theorem everywhere_plainElements (hP : HoldsOfPlain P) : (elements : List Expression) →
    (∀ n ∈ numbersOfElements elements, P (.number n)) →
      ∀ item ∈ plainElements elements, item.Everywhere P
  | [], _ => by simp [plainElements]
  | element :: rest, h => by
    obtain ⟨helement, hrest⟩ := List.forall_mem_append.mp h
    rw [plainElements]
    split
    · exact everywhere_plainElements hP rest hrest
    · exact List.forall_mem_cons.mpr
        ⟨everywhere_plain hP element helement, everywhere_plainElements hP rest hrest⟩

theorem everywhere_plainProperties (hP : HoldsOfPlain P) :
    (properties : List (Option Text × Expression)) →
      (∀ n ∈ numbersOfProperties properties, P (.number n)) →
        ∀ field ∈ plainProperties properties, field.2.Everywhere P
  | [], _ => by simp [plainProperties]
  | (none, _) :: rest, h => everywhere_plainProperties hP rest (List.forall_mem_append.mp h).2
  | (some key, value) :: rest, h => by
    obtain ⟨hvalue, hrest⟩ := List.forall_mem_append.mp h
    rw [plainProperties]
    exact List.forall_mem_cons.mpr
      ⟨everywhere_plain hP value hvalue, everywhere_plainProperties hP rest hrest⟩

end

private theorem holdsOfPlain_lacksNulls : HoldsOfPlain LacksNulls where
  null := trivial
  bool _ := trivial
  string _ := trivial
  array _ h := h
  object _ _ := trivial

/-- No array at any depth of a plain value holds null. -/
theorem everywhere_lacksNulls_plain (e : Expression) : (plain e).Everywhere LacksNulls :=
  everywhere_plain holdsOfPlain_lacksNulls e fun _ _ ↦ trivial

private theorem holdsOfPlain_isProperPart : HoldsOfPlain Json.IsProperPart where
  null := trivial
  bool _ := trivial
  string _ := trivial
  array _ _ := trivial
  object _ h := h

private theorem isProperPart_number (h : e.IsProper) :
    ∀ n ∈ e.numbers, Json.IsProperPart (.number n) := by
  intro n hn
  cases n with
  | int n => trivial
  | float x => exact h x hn

/-- The plain value of an expression with numbers in their form is one that readers give. -/
theorem isProper_plain (e : Expression) (h : e.IsProper) : (plain e).IsProper :=
  everywhere_plain holdsOfPlain_isProperPart e (isProperPart_number h)

/-- The fields of an object literal, as an object, are a value that readers give. -/
theorem isProper_plainFields {e : Expression} (h : e.IsProper) :
    (Json.object (plainFields e)).IsProper :=
  isProper_plain (.object e.unwrap.properties)
    (isProper_object.mpr (isProper_properties (isProper_unwrap h)))

end Expression

/-! ### Story files -/

/-- The expression is missing, or is what is known of a tree. -/
def Expression.IsRead (e : Expression) : Prop := e = .absent ∨ ∃ tree, ofTree tree = .ok e

/-- What holds of the expressions of trees holds of expressions that are read, if it holds of no
expression at all. -/
theorem Expression.IsRead.holds {P : Expression → Prop} {e : Expression} (h : e.IsRead)
    (habsent : P .absent) (htree : ∀ tree, Yields P (ofTree tree)) : P e := by
  rcases h with rfl | ⟨tree, h⟩
  · exact habsent
  · exact htree tree e h

theorem Expression.isRead_ofTree (tree : Script.Tree) : Yields IsRead (ofTree tree) :=
  fun _ h ↦ .inr ⟨tree, h⟩

/-- The expressions of a candidate are read. -/
def Candidate.IsRead (c : Candidate) : Prop := c.initializer.IsRead ∧ c.args.IsRead

/-- The expressions of a candidate have their numbers in their form. -/
def Candidate.IsProper (c : Candidate) : Prop := c.initializer.IsProper ∧ c.args.IsProper

namespace StoryFile

open Script

variable {declared : Fields Declared}

private theorem isRead_absent : Expression.absent.IsRead := .inl rfl

private theorem isRead_expressionOf (value : Option Tree) :
    Yields Expression.IsRead (expressionOf value) := by
  cases value with
  | none => exact .ok isRead_absent
  | some tree => exact Expression.isRead_ofTree tree

section

variable {P : Candidate → Prop}
  (hP : ∀ exportName line initializer localName, initializer.IsRead →
    P { exportName, line, initializer, localName })

include hP

private theorem yields_exportedBy (declaration : Declaration) :
    Yields (fun cs ↦ ∀ c ∈ cs, P c) (exportedBy declaration) := by
  cases declaration with
  | binding declarators =>
    exact .mapM fun found _ ↦ (isRead_expressionOf found.2.value).bind fun _ h ↦
      .ok (hP _ _ _ _ h)
  | function line name parts =>
    exact .ok fun c hc ↦ List.mem_singleton.mp hc ▸ hP _ _ _ _ isRead_absent
  | other parts => exact .ok (by simp)

private theorem yields_exportedNames (declared : Fields Declared) (names : List ExportName) :
    Yields (fun cs ↦ ∀ c ∈ cs, P c) (exportedNames declared names) := by
  refine Yields.bind (P := fun found ↦ ∀ c? ∈ found, ∀ c, c? = some c → P c)
    (.mapM fun item _ ↦ ?_) fun found h ↦ .ok fun c hc ↦ ?_
  · have hnone : Yields (fun c? : Option Candidate ↦ ∀ c, c? = some c → P c)
        (.ok none : Except LiteralError _) := .ok (by simp)
    cases declared.get? item.name with
    | none => exact hnone
    | some declaration =>
      dsimp only
      split
      · exact hnone
      · cases declaration with
        | «variable» value =>
          refine (isRead_expressionOf value).bind fun initializer hvalue ↦ .ok ?_
          rintro c ⟨⟩
          exact hP _ _ _ _ hvalue
        | function =>
          refine .ok ?_
          rintro c ⟨⟩
          exact hP _ _ _ _ isRead_absent
  · obtain ⟨c?, hmem, hsome⟩ := List.mem_filterMap.mp hc
    exact h c? hmem c hsome

private theorem yields_candidatesOf (declared : Fields Declared) (statement : Statement) :
    Yields (fun cs ↦ ∀ c ∈ cs, P c) (candidatesOf declared statement) := by
  cases statement with
  | exportDeclaration declaration => exact yields_exportedBy hP declaration
  | exportNames names => exact yields_exportedNames hP declared names
  | _ => exact .ok (by simp)

/-- What holds of every candidate that nothing is assigned to holds of the exports of a module. -/
theorem yields_exports (m : Module) :
    Yields (fun stories ↦ ∀ entry ∈ stories.fields, P entry.2) (exports m) := by
  refine Yields.bind (.mapM fun statement _ ↦ yields_candidatesOf hP (declarations m) statement)
    fun candidates h ↦ .ok ?_
  intro entry hentry
  obtain ⟨c, hc, rfl⟩ := List.mem_map.mp (Fields.mem_ofList hentry)
  obtain ⟨cs, hcs, hmem⟩ := List.mem_flatten.mp hc
  exact h cs hcs c hmem

end

private theorem isRead_metaExpressionOf (m : Module) :
    Yields Expression.IsRead (metaExpressionOf m) := by
  unfold metaExpressionOf
  split
  · rw [metaOf_eq_ofTree]
    exact Expression.isRead_ofTree _
  · exact .ok isRead_absent

private theorem isRead_assign {value : Expression} {c : Candidate} (property : Text)
    (hvalue : value.IsRead) (hc : c.IsRead) : (assign property value c).IsRead := by
  unfold assign
  split
  · exact ⟨hc.1, hvalue⟩
  · split
    · split
      · split <;> exact hc
      · exact hc
    · exact hc

private theorem isRead_applyAssignment {stories : OrderedMap Candidate} (a : Assignment)
    (h : ∀ entry ∈ stories.fields, entry.2.IsRead) :
    Yields (fun stories ↦ ∀ entry ∈ stories.fields, entry.2.IsRead)
      (applyAssignment stories a) := by
  unfold applyAssignment
  split
  · refine (Expression.isRead_ofTree a.value).bind fun value hvalue ↦ .ok fun entry hentry ↦ ?_
    obtain ⟨old, hold, rfl⟩ := List.mem_map.mp hentry
    dsimp only
    split
    · exact isRead_assign a.property hvalue (h old hold)
    · exact h old hold
  · exact .ok h

private theorem isRead_assignments {stories : OrderedMap Candidate} (as : List Assignment)
    (h : ∀ entry ∈ stories.fields, entry.2.IsRead) :
    Yields (fun stories ↦ ∀ entry ∈ stories.fields, entry.2.IsRead)
      (as.foldlM applyAssignment stories) := by
  induction as generalizing stories with
  | nil => exact .ok h
  | cons a rest ih =>
    rw [List.foldlM_cons]
    exact (isRead_applyAssignment a h).bind fun _ hnext ↦ ih hnext

/-- The expressions of a story file are read. -/
structure IsRead (f : StoryFile) : Prop where
  metaExpression : f.metaExpression.IsRead
  stories : ∀ entry ∈ f.stories.fields, entry.2.IsRead

/-- Whatever is a story file holds only expressions that are read off trees. -/
theorem isRead_ofModule (path : Option Path) (m : Module) : Yields IsRead (ofModule path m) := by
  rw [ofModule_eq]
  have hexports := yields_exports (P := Candidate.IsRead) (fun _ _ _ _ h ↦ ⟨h, isRead_absent⟩) m
  refine hexports.bind fun stories hstories ↦
    (isRead_metaExpressionOf m).bind fun metaExpression hexpression ↦ ?_
  exact (isRead_assignments (assignments m) hstories).bind fun _ hassigned ↦
    .ok ⟨hexpression, hassigned⟩

/-- The expressions of a story file have their numbers in their form. -/
structure IsProper (f : StoryFile) : Prop where
  metaExpression : f.metaExpression.IsProper
  stories : ∀ entry ∈ f.stories.fields, entry.2.IsProper

/-- Whatever is read as a story file has its numbers in their form. -/
theorem isProper_ofModule (path : Option Path) (m : Module) :
    Yields IsProper (ofModule path m) := by
  have hproper : ∀ e : Expression, e.IsRead → e.IsProper := by
    intro e h
    exact h.holds (Expression.isProper_of_numbers_eq_nil rfl) Expression.isProper_ofTree
  intro f hf
  have hread := isRead_ofModule path m f hf
  constructor
  · exact hproper _ hread.metaExpression
  · intro entry hentry
    exact ⟨hproper _ (hread.stories entry hentry).1, hproper _ (hread.stories entry hentry).2⟩

end StoryFile

end StoryCatalog
