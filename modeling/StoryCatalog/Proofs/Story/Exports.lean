import StoryCatalog.Proofs.Literal.Module
import StoryCatalog.Proofs.Fields

/-!
# The names that a module exports

Statement by statement, a module exports names: those that an exported declaration introduces, and
those of an export clause. Each of them is a candidate or none, by the declarations of the module
(`NamedExport.candidate?`), and the exports of the module are its candidates in this order
(`exports_eq`). So two modules have the same exports as soon as their names come to the same
candidates, however the names are spread over statements.
-/

namespace StoryCatalog.StoryFile

open Script

variable {m : Module}

theorem bind_eq_ok_iff {ε α β : Type} {x : Except ε α} {f : α → Except ε β} {b : β} :
    x >>= f = .ok b ↔ ∃ a, x = .ok a ∧ f a = .ok b := by
  cases x <;> simp [bind, Except.bind]

/-- A name that a statement exports: one that the statement declares, or one of an export clause. -/
inductive NamedExport where
  | declared (name : Text) (line : Nat) (value : Option Tree)
  | listed (item : ExportName)

namespace NamedExport

/-- The name of the binding and the name that it is exported under. -/
def names : NamedExport → Text × Text
  | .declared name _ _ => (name, name)
  | .listed item => (item.name, item.exportedAs.getD item.name)

/-- What is known of the value of a declared name; a function has none. -/
def initializerOf : Declared → Except LiteralError Expression
  | .variable value => expressionOf value
  | .function => .ok .absent

/-- The candidate that an exported name comes to. -/
def candidate? (declared : Fields Declared) : NamedExport → Except LiteralError (Option Candidate)
  | .declared exportName line value => do
    return some { exportName, line, initializer := ← expressionOf value }
  | .listed item =>
    match declared.get? item.name with
    | none => .ok none
    | some declaration =>
      let exported := item.exportedAs.getD item.name
      if exported = ("default" : Text) then .ok none
      else do
        return some
          { exportName := exported
            line := item.line
            initializer := ← initializerOf declaration
            localName := if item.name = exported then none else some item.name }

end NamedExport

/-- The names that a declaration exports where it is exported. -/
def declaredExports : Declaration → List NamedExport
  | .binding declarators =>
    declarators.filterMap fun d ↦ d.name.map fun name ↦ .declared name d.line d.value
  | .function line name _ => [.declared name line none]
  | .other _ => []

/-- The names that a statement exports, but for a default. -/
def namedExports : Statement → List NamedExport
  | .exportDeclaration declaration => declaredExports declaration
  | .exportNames names => names.map .listed
  | _ => []

/-- The candidates among results, if there is no failure. -/
def gather (results : List (Except LiteralError (Option Candidate))) :
    Except LiteralError (List Candidate) :=
  List.filterMap id <$> results.mapM id

/-- What the exported names of a module come to, in order. -/
def results (m : Module) : List (Except LiteralError (Option Candidate)) :=
  (m.flatMap namedExports).map (NamedExport.candidate? (declarations m))

variable {rs rs' : List (Except LiteralError (Option Candidate))}

theorem gather_append (rs rs' : List (Except LiteralError (Option Candidate))) :
    gather (rs ++ rs') = gather rs >>= fun cs ↦ (cs ++ ·) <$> gather rs' := by
  simp [gather, List.mapM_append, List.filterMap_append]

theorem gather_cons (r : Except LiteralError (Option Candidate)) :
    gather (r :: rs) = r >>= fun c? ↦ (c?.toList ++ ·) <$> gather rs := by
  rw [gather, List.mapM_cons]
  simp only [gather, map_bind, id]
  congr 1
  funext c?
  cases c? <;> simp

theorem gather_flatMap {α : Type} (f : α → List (Except LiteralError (Option Candidate)))
    (xs : List α) :
    gather (xs.flatMap f) = List.flatten <$> xs.mapM fun x ↦ gather (f x) := by
  induction xs with
  | nil => rfl
  | cons x xs ih =>
    rw [List.flatMap_cons, gather_append, ih, List.mapM_cons]
    simp

/-- The candidates of a declaration are those of the names that it exports. -/
theorem exportedBy_eq (declared : Fields Declared) (declaration : Declaration) :
    exportedBy declaration =
      gather ((declaredExports declaration).map (NamedExport.candidate? declared)) := by
  cases declaration with
  | binding declarators =>
    rw [exportedBy, declaredExports]
    induction declarators with
    | nil => rfl
    | cons d declarators ih =>
      cases hname : d.name with
      | none => simpa [hname] using ih
      | some name =>
        simp only [List.filterMap_cons, hname, Option.map_some, List.mapM_cons, List.map_cons,
          gather_cons, ih]
        simp [NamedExport.candidate?]
  | function line name parts => rfl
  | other parts => rfl

/-- The candidates of an export clause are those of its names. -/
theorem exportedNames_eq (declared : Fields Declared) (names : List ExportName) :
    exportedNames declared names =
      gather ((names.map .listed).map (NamedExport.candidate? declared)) := by
  rw [exportedNames, bind_pure_comp, gather, List.map_map, List.mapM_map]
  refine congrArg (fun candidate? ↦ List.filterMap id <$> names.mapM candidate?)
    (funext fun item ↦ ?_)
  simp only [Function.comp_apply, id_eq, NamedExport.candidate?]
  cases declared.get? item.name with
  | none => rfl
  | some declaration =>
    dsimp only
    split
    · rfl
    · cases declaration <;> rfl

theorem candidatesOf_eq (declared : Fields Declared) (statement : Statement) :
    candidatesOf declared statement =
      gather ((namedExports statement).map (NamedExport.candidate? declared)) := by
  cases statement with
  | exportDeclaration declaration => exact exportedBy_eq declared declaration
  | exportNames names => exact exportedNames_eq declared names
  | _ => rfl

/-- The exports of a module are the candidates among its exported names, in order. -/
theorem exports_eq (m : Module) :
    exports m =
      (fun cs ↦ OrderedMap.ofList (cs.map fun c ↦ (c.exportName, c))) <$> gather (results m) := by
  have hcandidates : candidatesOf (declarations m) = fun statement ↦
      gather ((namedExports statement).map (NamedExport.candidate? (declarations m))) :=
    funext (candidatesOf_eq _)
  rw [results, List.map_flatMap, gather_flatMap, exports, hcandidates]
  simp

end StoryCatalog.StoryFile
