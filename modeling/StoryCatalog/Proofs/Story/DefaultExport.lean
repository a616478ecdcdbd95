import StoryCatalog.Proofs.Story.Assignments
import StoryCatalog.Story.FromFile

/-!
# Default exports by a clause

A module exports its meta object with `export default`. A clause that lists a name as `default`
exports no story, and it is not looked at for the meta object either: it adds nothing to the file
(`AddsName.ofModule_eq`). So the meta object that is listed in this way is lost, unless the module
has it from another default export (`metaExpression_of_listed`).
-/

namespace StoryCatalog

open Script

/-- Something is known of every tree that is read. -/
theorem Expression.isPresent_ofTree (tree : Tree) : Yields (· ≠ .absent) (ofTree tree) := by
  have hmap : ∀ {α : Type} {x : Except LiteralError α} {f : α → Expression},
      (∀ a, f a ≠ .absent) → Yields (· ≠ .absent) (x.map f) := by
    intro α x f hf
    exact .map (P := fun _ ↦ True) (fun _ _ ↦ trivial) fun a _ ↦ hf a
  cases tree with
  | string pieces => exact hmap (by simp)
  | template body substitutions =>
    cases substitutions with
    | nil => exact hmap (by simp)
    | cons first rest => exact .ok (by simp)
  | object members => exact hmap (by simp)
  | array elements => exact hmap (by simp)
  | assertion form operand types => exact hmap (by simp)
  | number spelling =>
    rw [ofTree]
    split <;> exact .ok (by simp)
  | unary operator operand text =>
    unfold ofTree
    dsimp only
    split <;> exact .ok (by simp)
  | _ => exact .ok (by simp)

namespace StoryFile

variable {path : Option Path} {before after m m' : Module} {line : Nat} {name : Text}
  {file : StoryFile}

/-- One more name in an export clause of a module: in a clause of its own, or among the names of
another one. -/
inductive AddsName (item : ExportName) : Module → Module → Prop
  | alone (front rest : Module) :
    AddsName item (front ++ rest) (front ++ .exportNames [item] :: rest)
  | within (front rest : Module) (names more : List ExportName) :
    AddsName item (front ++ .exportNames (names ++ more) :: rest)
      (front ++ .exportNames (names ++ item :: more) :: rest)

/-- A name of a clause changes nothing that other statements say. -/
theorem AddsName.flatMap_eq {item : ExportName} {α : Type} {f : Statement → List α}
    (hf : ∀ names, f (.exportNames names) = []) (h : AddsName item m m') :
    m'.flatMap f = m.flatMap f := by
  cases h with
  | alone front rest => simp [hf]
  | within front rest names more => simp [hf]

/-- A name of a clause is one more exported name. -/
theorem AddsName.namedExports_eq {item : ExportName} (h : AddsName item m m') :
    ∃ front rest, m.flatMap namedExports = front ++ rest ∧
      m'.flatMap namedExports = front ++ .listed item :: rest := by
  cases h with
  | alone front rest =>
    exact ⟨front.flatMap namedExports, rest.flatMap namedExports, by simp, by simp [namedExports]⟩
  | within front rest names more =>
    refine ⟨front.flatMap namedExports ++ names.map .listed,
      more.map .listed ++ rest.flatMap namedExports, ?_, ?_⟩
    · simp [namedExports]
    · simp [namedExports]

/-- A default is no candidate. -/
theorem candidate?_default (declared : Fields Declared) :
    NamedExport.candidate? declared (.listed ⟨line, name, some "default"⟩) = .ok none := by
  rw [NamedExport.candidate?]
  cases declared.get? name <;> rfl

/-- What is no candidate adds nothing to the others. -/
theorem gather_insert_none (rs rs' : List (Except LiteralError (Option Candidate))) :
    gather (rs ++ .ok none :: rs') = gather (rs ++ rs') := by
  have hnone : gather (.ok none :: rs') = gather rs' := by
    rw [gather_cons]
    exact id_map (gather rs')
  rw [gather_append, gather_append, hnone]

/-- A name that a clause lists as default adds nothing to a file. -/
theorem AddsName.ofModule_eq (path : Option Path)
    (h : AddsName ⟨line, name, some "default"⟩ m m') : ofModule path m' = ofModule path m := by
  have hdeclared : declarations m' = declarations m := by
    rw [declarations, declarations, h.flatMap_eq fun _ ↦ rfl]
  have hmeta : metaExpressionOf m' = metaExpressionOf m := by
    rw [metaExpressionOf, metaExpressionOf, hdeclared, defaultExport?, defaultExport?,
      List.filterMap_eq_flatMap_toList, List.filterMap_eq_flatMap_toList,
      h.flatMap_eq fun _ ↦ rfl]
  have hassigned : assignments m' = assignments m := by
    rw [assignments, assignments, Module.expressions, Module.expressions,
      h.flatMap_eq fun _ ↦ rfl]
  have hexports : exports m' = exports m := by
    obtain ⟨front, rest, hm, hm'⟩ := h.namedExports_eq
    rw [exports_eq, exports_eq, results, results, hdeclared, hm, hm', List.map_append,
      List.map_append, List.map_cons, candidate?_default, gather_insert_none]
  rw [StoryFile.ofModule_eq, StoryFile.ofModule_eq, hexports, hmeta, hassigned]

/-- Without the default export of a name, a file has the same stories and the meta object of its
other default exports. -/
theorem ofModule_without_default
    (h : ofModule path (before ++ .exportDefault none (some (.identifier name)) :: after) =
      .ok file) :
    ofModule path (before ++ after) =
      (fun metaExpression ↦ { file with metaExpression }) <$>
        metaExpressionOf (before ++ after) := by
  obtain ⟨rfl, -, stories, hexports, hassigned⟩ := ofModule_ok_iff.mp h
  have hdeclared : declarations (before ++ .exportDefault none (some (.identifier name)) :: after) =
      declarations (before ++ after) := by
    simp [declarations, declaredIn]
  have hsame : exports (before ++ after) = .ok stories := by
    rw [← hexports, exports_eq, exports_eq, results, results, hdeclared]
    simp [namedExports]
  have hassignments :
      assignments (before ++ .exportDefault none (some (.identifier name)) :: after) =
        assignments (before ++ after) := by
    simp [assignments, Module.expressions, Statement.parts, Tree.preorderAll, Tree.preorder]
  rw [hassignments] at hassigned
  rw [ofModule_eq, hsame]
  cases metaExpressionOf (before ++ after) with
  | error e => rfl
  | ok metaExpression =>
    show (assignments (before ++ after)).foldlM applyAssignment stories >>= _ = _
    rw [hassigned]
    rfl

/-- A file that exports a name as default has a meta expression, if this is its only default
export. -/
theorem metaExpression_ne_absent
    (h : ofModule path (before ++ .exportDefault none (some (.identifier name)) :: after) =
      .ok file)
    (honly : defaultExport? (before ++ after) = none) : file.metaExpression ≠ .absent := by
  have hdefault :
      defaultExport? (before ++ .exportDefault none (some (.identifier name)) :: after) =
        some (some (.identifier name)) := by
    rw [defaultExport?, List.getLast?_eq_none_iff, List.filterMap_append,
      List.append_eq_nil_iff] at honly
    simp [defaultExport?, honly.1, honly.2]
  obtain ⟨-, hmeta, -⟩ := ofModule_ok_iff.mp h
  rw [metaExpressionOf, hdefault] at hmeta
  dsimp only at hmeta
  rw [metaOf_eq_ofTree] at hmeta
  exact Expression.isPresent_ofTree _ _ hmeta

/-- The default export of a name, spelled as a name of a clause: the stories stay, and the meta
expression is that of the other default exports. So the meta expression stays exactly if these give
it as well; if there are none, it is lost, and the records come without a meta object. -/
theorem metaExpression_of_listed
    (h : ofModule path (before ++ .exportDefault none (some (.identifier name)) :: after) =
      .ok file)
    (hlisted : AddsName ⟨line, name, some "default"⟩ (before ++ after) m') :
    ofModule path m' =
        (fun metaExpression ↦ { file with metaExpression }) <$> metaExpressionOf (before ++ after) ∧
      (ofModule path m' = .ok file ↔
        metaExpressionOf (before ++ after) = .ok file.metaExpression) ∧
      (defaultExport? (before ++ after) = none →
        file.metaExpression ≠ .absent ∧
          ofModule path m' = .ok { file with metaExpression := .absent } ∧
          ∀ importPath source,
            StoryFile.records { file with metaExpression := .absent } importPath source =
              file.stories.values.map (·.toRecord {} importPath source)) := by
  have hm' := (hlisted.ofModule_eq path).trans (ofModule_without_default h)
  refine ⟨hm', ?_, ?_⟩
  · rw [hm']
    cases metaExpressionOf (before ++ after) with
    | error e => simp
    | ok metaExpression =>
      constructor
      · intro heq
        exact congrArg Except.ok (congrArg StoryFile.metaExpression (Except.ok.inj heq))
      · rintro heq
        cases heq
        rfl
  · intro honly
    refine ⟨metaExpression_ne_absent h honly, ?_, fun _ _ ↦ rfl⟩
    rw [hm', metaExpressionOf, honly]
    rfl

/-- The meta object of a file with one story is its only default export. -/
theorem metaExpression_of_listed_meta :
    let titled : Tree := .object [.pair (.name "title") (.string [.fragment "A"])]
    let declared : Statement := .declaration (.binding [⟨1, some "meta", some titled, []⟩])
    let story : Statement := .exportDeclaration (.binding [⟨3, some "B", some (.object []), []⟩])
    ∃ file,
      ofModule none ([declared] ++ .exportDefault none (some (.identifier "meta")) :: [story]) =
        .ok file ∧
      file.metaExpression ≠ .absent ∧
      ofModule none [declared, .exportNames [⟨2, "meta", some "default"⟩], story] =
        .ok { file with metaExpression := .absent } := by
  intro titled declared story
  have hfile : ofModule none
      ([declared] ++ .exportDefault none (some (.identifier "meta")) :: [story]) = .ok _ := rfl
  have hlisted : AddsName ⟨2, "meta", some "default"⟩ ([declared] ++ [story])
      ([declared] ++ .exportNames [⟨2, "meta", some "default"⟩] :: [story]) := .alone _ _
  have hlost := metaExpression_of_listed hfile hlisted
  exact ⟨_, hfile, (hlost.2.2 rfl).1, (hlost.2.2 rfl).2.1⟩

/-- The titles of the records of a source text. -/
def titlesOf (source : Text) : Option (List Text) :=
  (read none source).toOption.map fun file ↦ (file.records [] source).map (·.title)

/-- The title of the meta object is lost with the spelling in a clause, alone or among other
names. -/
theorem title_lost_by_listing :
    titlesOf "const m=\x7btitle:'A'\x7d;export default m;const B=1;export\x7bB\x7d" =
        some [("A" : Text)] ∧
      titlesOf "const m=\x7btitle:'A'\x7d;export\x7bm as default\x7d;const B=1;export\x7bB\x7d" =
        some [("Unknown" : Text)] ∧
      titlesOf "const m=\x7btitle:'A'\x7d;const B=1;export\x7bB,m as default\x7d" =
        some [("Unknown" : Text)] := by
  decide +kernel

end StoryFile

end StoryCatalog
