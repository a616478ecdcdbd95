import StoryCatalog.Proofs.Literal.Tree
import StoryCatalog.StoryFile

/-!
# The literals of story files

Of a module, the values of its exports, the meta object and what is assigned to exported bindings
are read as expressions. `StoryFile.ofModule` fails exactly if a literal in one of these has no
value.
-/

namespace StoryCatalog.StoryFile

open Script

variable {stories : OrderedMap Candidate}

/-! ### Exports -/

/-- The literals of a value that may be missing. -/
def literalsOfValue : Option Tree → List Literal
  | some tree => tree.literals
  | none => []

/-- The literals of an exported declaration. -/
def literalsOfDeclaration : Declaration → List Literal
  | .binding declarators =>
    (declarators.filterMap fun d ↦ d.name.map fun name ↦ (name, d)).flatMap fun (_, d) ↦
      literalsOfValue d.value
  | _ => []

/-- The literals of a name of an export clause: those of the variable that it stands for. -/
def literalsOfName (declared : Fields Declared) (item : ExportName) : List Literal :=
  match declared.get? item.name with
  | some (.variable value) =>
    if item.exportedAs.getD item.name = ("default" : Text) then [] else literalsOfValue value
  | _ => []

/-- The literals of the exports of a statement. -/
def literalsOfStatement (declared : Fields Declared) : Statement → List Literal
  | .exportDeclaration declaration => literalsOfDeclaration declaration
  | .exportNames names => names.flatMap (literalsOfName declared)
  | _ => []

theorem decodes_expressionOf (value : Option Tree) :
    Decodes (literalsOfValue value) (expressionOf value) := by
  cases value with
  | none => exact .ok _
  | some tree => exact Expression.decodes_ofTree tree

theorem decodes_exportedBy (declaration : Declaration) :
    Decodes (literalsOfDeclaration declaration) (exportedBy declaration) := by
  cases declaration with
  | binding declarators =>
    exact Decodes.mapM (fun found : Text × Declarator ↦
      (decodes_expressionOf found.2.value).bind_pure _) _
  | function line name parts => exact .ok _
  | other parts => exact .ok _

theorem decodes_exportedNames (declared : Fields Declared) (names : List ExportName) :
    Decodes (names.flatMap (literalsOfName declared)) (exportedNames declared names) := by
  refine Decodes.bind_pure (Decodes.mapM (fun item ↦ ?_) names) (List.filterMap id)
  unfold literalsOfName
  cases declared.get? item.name with
  | none => exact .ok _
  | some declaration =>
    rcases declaration with value | _ <;> dsimp only
    · split
      · exact .ok _
      · exact (decodes_expressionOf value).bind_pure _
    · split <;> exact .ok _

theorem decodes_candidatesOf (declared : Fields Declared) (statement : Statement) :
    Decodes (literalsOfStatement declared statement) (candidatesOf declared statement) := by
  cases statement with
  | declaration declaration => exact .ok _
  | exportDeclaration declaration => exact decodes_exportedBy declaration
  | exportDefault declaration value => exact .ok _
  | exportNames names => exact decodes_exportedNames declared names
  | other parts => exact .ok _

/-! ### The meta object -/

/-- The tree that a default export is read from: a name stands for the value that it has at the top
of the module. -/
def metaTree (declared : Fields Declared) (value : Tree) : Tree :=
  match (plainName? (unwrapTree value)).bind declared.get? with
  | some (.variable (some target)) => target
  | _ => value

/-- The literals of the meta object of a module. -/
def literalsOfMeta (m : Module) : List Literal :=
  match defaultExport? m with
  | some (some value) => (metaTree (declarations m) value).literals
  | _ => []

/-- The meta expression of a module. -/
def metaExpressionOf (m : Module) : Except LiteralError Expression :=
  match defaultExport? m with
  | some (some value) => metaOf (declarations m) value
  | _ => .ok .absent

theorem metaOf_eq_ofTree (declared : Fields Declared) (value : Tree) :
    metaOf declared value = Expression.ofTree (metaTree declared value) := by
  unfold metaOf metaTree
  rcases (plainName? (unwrapTree value)).bind declared.get? with _ | (_ | target) | _ <;> rfl

theorem decodes_metaExpressionOf (m : Module) :
    Decodes (literalsOfMeta m) (metaExpressionOf m) := by
  unfold literalsOfMeta metaExpressionOf
  split
  · rw [metaOf_eq_ofTree]
    exact Expression.decodes_ofTree _
  · exact .ok _

/-! ### Assignments -/

/-- The literals that are assigned to the bindings of stories. -/
def literalsOfAssigned (stories : OrderedMap Candidate) (as : List Assignment) : List Literal :=
  as.flatMap fun a ↦
    if stories.values.any (·.binding == a.binding) then a.value.literals else []

theorem binding_assign (property : Text) (value : Expression) (c : Candidate) :
    (assign property value c).binding = c.binding := by
  unfold assign
  split
  · rfl
  · split
    · split
      · split <;> rfl
      · rfl
    · rfl

theorem values_mapValues (f : Candidate → Candidate) :
    (stories.mapValues f).values = stories.values.map f := by
  simp [OrderedMap.values, OrderedMap.mapValues, Fields.values, Fields.mapValues]

/-- An assignment does not change which bindings are exported. -/
theorem any_binding_mapValues {property : Text} {value : Expression} (name other : Text) :
    (stories.mapValues fun c ↦ if c.binding = name then assign property value c else c).values.any
        (·.binding == other) = stories.values.any (·.binding == other) := by
  rw [values_mapValues, List.any_map]
  congr 1
  funext c
  dsimp only [Function.comp]
  split
  · rw [binding_assign]
  · rfl

theorem literalsOfAssigned_mapValues (property : Text) (value : Expression) (name : Text)
    (as : List Assignment) :
    literalsOfAssigned (stories.mapValues fun c ↦
      if c.binding = name then assign property value c else c) as =
      literalsOfAssigned stories as := by
  unfold literalsOfAssigned
  congr 1
  funext a
  rw [any_binding_mapValues]

theorem decodes_assignments (as : List Assignment) (stories : OrderedMap Candidate) :
    Decodes (literalsOfAssigned stories as) (as.foldlM applyAssignment stories) := by
  induction as generalizing stories with
  | nil => exact .ok _
  | cons a rest ih =>
    rw [List.foldlM_cons, literalsOfAssigned, List.flatMap_cons]
    unfold applyAssignment
    split
    · refine ((Expression.decodes_ofTree a.value).bind_pure _).bind fun next hnext ↦ ?_
      cases hvalue : Expression.ofTree a.value with
      | error e => rw [hvalue] at hnext; cases hnext
      | ok value =>
        rw [hvalue] at hnext
        cases hnext
        rw [← literalsOfAssigned, ← literalsOfAssigned_mapValues a.property value a.binding rest]
        exact ih _
    · exact ih stories

/-! ### Modules -/

/-- The exports of a module, before anything is assigned to them. -/
def exports (m : Module) : Except LiteralError (OrderedMap Candidate) := do
  let candidates ← m.mapM (candidatesOf (declarations m))
  return OrderedMap.ofList (candidates.flatten.map fun c ↦ (c.exportName, c))

/-- The literals of a module that are decoded when it is read as a story file, in order: those of
its exports, of the meta object, and of what is assigned to exported bindings. -/
def literalsOf (m : Module) : List Literal :=
  m.flatMap (literalsOfStatement (declarations m)) ++
    (literalsOfMeta m ++
      match exports m with
      | .ok stories => literalsOfAssigned stories (assignments m)
      | .error _ => [])

theorem ofModule_eq (path : Option Path) (m : Module) :
    ofModule path m = exports m >>= fun stories ↦ metaExpressionOf m >>= fun metaExpression ↦
      (assignments m).foldlM applyAssignment stories >>= fun stories ↦
        pure { path, metaExpression, stories } := by
  unfold ofModule exports metaExpressionOf
  simp only [bind_assoc, pure_bind]
  congr 1
  funext candidates
  rcases defaultExport? m with _ | _ | value <;> rfl

/-- A module is a story file unless one of these literals has no value; the first one tells why. -/
theorem decodes_ofModule (path : Option Path) (m : Module) :
    Decodes (literalsOf m) (ofModule path m) := by
  have hexports : Decodes (m.flatMap (literalsOfStatement (declarations m))) (exports m) :=
    (Decodes.mapM (decodes_candidatesOf (declarations m)) m).bind_pure _
  rw [ofModule_eq]
  refine hexports.bind fun stories hstories ↦ (decodes_metaExpressionOf m).bind fun _ _ ↦ ?_
  rw [hstories]
  exact (decodes_assignments (assignments m) stories).bind_pure _

end StoryCatalog.StoryFile
