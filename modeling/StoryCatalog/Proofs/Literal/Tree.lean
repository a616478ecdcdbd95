import StoryCatalog.Proofs.Literal.Decoding

/-!
# The literals of trees

Which literals of a tree are decoded when it is read as an expression. Reading fails exactly if one
of them has no value, with the first such literal's fault (`Decodes`): a rule for each way in which
readers are put together carries this from escape sequences to whole trees.
-/

namespace StoryCatalog

/-- Something is decoded from literals: it fails exactly if one of them does, with the fault of the
first one. -/
def Decodes {α : Type} (literals : List Literal) (x : Except LiteralError α) : Prop :=
  ∀ e, x = .error e ↔ literals.findSome? Literal.fault? = some e

namespace Decodes

variable {α β : Type} {literals more : List Literal} {x : Except LiteralError α}

/-- A value that needs no literal. -/
theorem ok (a : α) : Decodes [] (.ok a : Except LiteralError α) := by
  simp [Decodes]

/-- A single literal. -/
theorem single {l : Literal} (h : ∀ e, x = .error e ↔ l.Fails e) : Decodes [l] x := by
  intro e
  rw [h e, ← Literal.fault?_eq_some_iff]
  cases hfault : l.fault? <;> simp [List.findSome?, hfault]

/-- Nothing fails exactly if no literal does. -/
theorem exists_ok_iff (h : Decodes literals x) :
    (∃ a, x = .ok a) ↔ ∀ l ∈ literals, ∀ e, ¬ l.Fails e := by
  have hnone : (∃ a, x = .ok a) ↔ literals.findSome? Literal.fault? = none := by
    cases x with
    | ok a =>
      simp only [Except.ok.injEq, exists_eq', true_iff]
      cases hsome : literals.findSome? Literal.fault? with
      | none => rfl
      | some e => cases (h e).mpr hsome
    | error e => simp [(h e).mp rfl]
  rw [hnone, List.findSome?_eq_none_iff]
  simp only [Option.eq_none_iff_forall_ne_some, ne_eq, Literal.fault?_eq_some_iff]

theorem map (h : Decodes literals x) (f : α → β) : Decodes literals (x.map f) := by
  intro e
  rw [map_error_iff]
  exact h e

/-- What is decoded later fails only if what is decoded before does not. -/
theorem bind {f : α → Except LiteralError β} (h : Decodes literals x)
    (hf : ∀ a, x = .ok a → Decodes more (f a)) : Decodes (literals ++ more) (x >>= f) := by
  intro e
  rw [List.findSome?_append]
  cases x with
  | error e' =>
    rw [(h e').mp rfl]
    simp [Bind.bind, Except.bind]
  | ok a =>
    have hnone : literals.findSome? Literal.fault? = none := by
      cases hsome : literals.findSome? Literal.fault? with
      | none => rfl
      | some e' => cases (h e').mpr hsome
    rw [hnone, Option.none_or]
    exact hf a rfl e

/-- What is made of a value needs no further literal. -/
theorem bind_pure (h : Decodes literals x) (f : α → β) :
    Decodes literals (x >>= fun a ↦ pure (f a)) := by
  intro e
  rw [← h e]
  cases x <;> simp [Bind.bind, Except.bind, pure, Except.pure]

/-- One after another. -/
theorem mapM {f : α → Except LiteralError β} {g : α → List Literal}
    (h : ∀ a, Decodes (g a) (f a)) (l : List α) : Decodes (l.flatMap g) (l.mapM f) := by
  induction l with
  | nil => exact ok []
  | cons a rest ih =>
    rw [List.mapM_cons, List.flatMap_cons]
    exact (h a).bind fun b _ ↦ ih.bind_pure _

end Decodes

/-! ### Quoted literals, templates and keys -/

namespace Escape

/-- The escape sequences of a quoted literal. -/
def pieceLiterals : List Script.Piece → List Literal
  | [] => []
  | .fragment _ :: rest => pieceLiterals rest
  | .escape token :: rest => .escape token :: pieceLiterals rest

/-- The escape sequences in the body of a template. -/
def templateLiterals (body : Text) : List Literal :=
  match body with
  | [] => []
  | c :: rest =>
    if c = CodePoint.ofChar '\\' && !rest.isEmpty then
      .escape (c :: rest.take (lengthInTemplate rest)) ::
        templateLiterals (rest.drop (lengthInTemplate rest))
    else templateLiterals rest
termination_by body.length
decreasing_by all_goals simp [List.length_drop]; try omega

theorem decodes_decode (token : Text) : Decodes [.escape token] (decode token) :=
  .single fun _ ↦ decode_error_iff

theorem decodes_pieces (pieces : List Script.Piece) :
    Decodes (pieceLiterals pieces) (decodePieces pieces) := by
  induction pieces with
  | nil => exact .ok []
  | cons piece rest ih =>
    cases piece with
    | fragment text => exact ih.bind_pure _
    | escape token => exact (decodes_decode token).bind fun _ _ ↦ ih.bind_pure _

theorem decodes_template (body : Text) :
    Decodes (templateLiterals body) (decodeTemplate body) := by
  induction body using decodeTemplate.induct with
  | case1 =>
    rw [templateLiterals, decodeTemplate]
    exact .ok []
  | case2 c rest h length ih =>
    rw [templateLiterals, decodeTemplate, if_pos h, if_pos h]
    exact (decodes_decode _).bind fun _ _ ↦ ih.bind_pure _
  | case3 c rest h ih =>
    rw [templateLiterals, decodeTemplate, if_neg h, if_neg h]
    exact ih.bind_pure _

end Escape

/-! ### Trees -/

namespace Script

/-- The literals of a key that are decoded. -/
def Key.literals : Key → List Literal
  | .string pieces => Escape.pieceLiterals pieces
  | .number spelling => [.key spelling]
  | _ => []

namespace Tree

mutual

/-- The literals of a tree that are decoded when it is read as an expression, in order. -/
def literals : Tree → List Literal
  | .string pieces => Escape.pieceLiterals pieces
  | .template body [] => Escape.templateLiterals body
  | .object members => literalsOfMembers members
  | .array elements => literalsOfAll elements
  | .assertion _ operand _ => literals operand
  | _ => []

/-- The literals of several trees. -/
def literalsOfAll : List Tree → List Literal
  | [] => []
  | tree :: rest => literals tree ++ literalsOfAll rest

/-- The literals of the members of an object. -/
def literalsOfMembers : List Member → List Literal
  | [] => []
  | .pair key value :: rest => key.literals ++ (literals value ++ literalsOfMembers rest)
  | .shorthand _ :: rest => literalsOfMembers rest
  | .method key _ :: rest => key.literals ++ literalsOfMembers rest
  | .spread _ :: rest => literalsOfMembers rest

end

end Tree

end Script

namespace Expression

open Script

theorem decodes_keyOf (key : Key) : Decodes key.literals (keyOf key) := by
  cases key with
  | name text => exact .ok _
  | string pieces => exact (Escape.decodes_pieces pieces).map some
  | number spelling => exact .single fun _ ↦ Literal.keyOf_number_error_iff
  | computed expression => exact .ok _

mutual

/-- Reading a tree fails exactly if one of its literals has no value. -/
theorem decodes_ofTree : (tree : Tree) → Decodes tree.literals (ofTree tree)
  | .string pieces => (Escape.decodes_pieces pieces).map Expression.string
  | .template body [] => (Escape.decodes_template body).map Expression.string
  | .template _ (_ :: _) => .ok _
  | .number _ => .ok _
  | .boolean _ => .ok _
  | .null => .ok _
  | .identifier _ => .ok _
  | .object members => (decodes_ofMembers members).map Expression.object
  | .array elements => (decodes_ofTrees elements).map Expression.array
  | .function _ _ => .ok _
  | .markup _ _ => .ok _
  | .assertion _ operand _ => (decodes_ofTree operand).map _
  | .unary _ _ _ => .ok _
  | .property _ _ _ => .ok _
  | .assignment _ _ _ => .ok _
  | .other _ _ _ => .ok _

theorem decodes_ofTrees : (trees : List Tree) → Decodes (Tree.literalsOfAll trees) (ofTrees trees)
  | [] => .ok []
  | tree :: rest => (decodes_ofTree tree).bind fun _ _ ↦ (decodes_ofTrees rest).bind_pure _

theorem decodes_ofMembers :
    (members : List Member) → Decodes (Tree.literalsOfMembers members) (ofMembers members)
  | [] => .ok []
  | .pair key value :: rest =>
    (decodes_keyOf key).bind fun _ _ ↦ (decodes_ofTree value).bind fun _ _ ↦
      (decodes_ofMembers rest).bind_pure _
  | .shorthand _ :: rest => (decodes_ofMembers rest).bind_pure _
  | .method key _ :: rest =>
    (decodes_keyOf key).bind fun _ _ ↦ (decodes_ofMembers rest).bind_pure _
  | .spread _ :: rest => (decodes_ofMembers rest).bind_pure _

end

end Expression

end StoryCatalog
