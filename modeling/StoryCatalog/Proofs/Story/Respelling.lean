import StoryCatalog.Proofs.Story.Assignments

/-!
# Two spellings of an export

A declaration can be exported in place or by an export clause that names it. The two spellings come
to the same candidates but for their lines (`candidate?_eq_ofNames`), because a name of a clause
stands for what the module declares under it. So a module may spell each of its exported
declarations in either way (`ofModule_of_respells`). The name `default` is the exception: a clause
that lists it exports the default, which is no story.
-/

namespace StoryCatalog

open Script

/-! ### Lines -/

/-- A candidate without its line. -/
def Candidate.withoutLine (c : Candidate) : Candidate := { c with line := 0 }

/-- A story file without the lines of its stories. -/
def StoryFile.withoutLines (f : StoryFile) : StoryFile :=
  { f with stories := f.stories.mapValues Candidate.withoutLine }

namespace Script

/-- A declaration without its lines. -/
def Declaration.withoutLines : Declaration → Declaration
  | .binding declarators => .binding (declarators.map fun d ↦ { d with line := 0 })
  | .function _ name parts => .function 0 name parts
  | .other parts => .other parts

/-- A statement without its lines. -/
def Statement.withoutLines : Statement → Statement
  | .declaration declared => .declaration declared.withoutLines
  | .exportDeclaration declared => .exportDeclaration declared.withoutLines
  | .exportDefault declared value => .exportDefault (declared.map (·.withoutLines)) value
  | .exportNames names => .exportNames (names.map fun item ↦ { item with line := 0 })
  | .other parts => .other parts

/-- The name that a declaration of one plain name introduces: of a variable or of a function. -/
def Declaration.soleName? : Declaration → Option Text
  | .binding [declarator] => declarator.name
  | .function _ name _ => some name
  | _ => none

end Script

namespace StoryFile

variable {m m' : Module}

/-! ### Respelled modules -/

/-- A module in which exported declarations of chosen names are spelled as plain ones, with export
clauses for chosen names among the statements. Lines may be others. -/
inductive Respells (chosen : Text → Prop) : Module → Module → Prop
  | done : Respells chosen [] []
  | keep {s s' : Statement} {m m' : Module} (hsame : s'.withoutLines = s.withoutLines) :
    Respells chosen m m' → Respells chosen (s :: m) (s' :: m')
  | declare {d d' : Declaration} {name : Text} {m m' : Module} (hname : d.soleName? = some name)
    (hchosen : chosen name) (hsame : d'.withoutLines = d.withoutLines) :
    Respells chosen m m' → Respells chosen (.exportDeclaration d :: m) (.declaration d' :: m')
  | list {line : Nat} {name : Text} {m m' : Module} (hchosen : chosen name) :
    Respells chosen m m' → Respells chosen m (.exportNames [⟨line, name, none⟩] :: m')

/-- The names that a module exports, each with the name of its binding, in order. -/
def exportedNamesOf (m : Module) : List (Text × Text) :=
  (m.flatMap namedExports).map NamedExport.names

/-- What statements say that neither lines nor the spelling of chosen exports change is the same for
a respelled module. -/
theorem Respells.flatMap_eq {chosen : Text → Prop} {α : Type} {f : Statement → List α}
    (hlines : ∀ s : Statement, f s.withoutLines = f s)
    (hdeclare : ∀ (d : Declaration) (name : Text), d.soleName? = some name → chosen name →
      f (.declaration d) = f (.exportDeclaration d))
    (hlist : ∀ (line : Nat) (name : Text), chosen name → f (.exportNames [⟨line, name, none⟩]) = [])
    (h : Respells chosen m m') : m'.flatMap f = m.flatMap f := by
  induction h with
  | done => rfl
  | @keep s s' m m' hsame _ ih =>
    rw [List.flatMap_cons, List.flatMap_cons, ih, ← hlines s', hsame, hlines s]
  | @declare d d' name m m' hname hchosen hsame _ ih =>
    have hplain : f (.declaration d') = f (.declaration d) := by
      rw [← hlines (.declaration d'), Statement.withoutLines, hsame, ← Statement.withoutLines,
        hlines]
    rw [List.flatMap_cons, List.flatMap_cons, ih, hplain, hdeclare d name hname hchosen]
  | list hchosen _ ih => rw [List.flatMap_cons, hlist _ _ hchosen, List.nil_append, ih]

section

variable {chosen : Text → Prop} (h : Respells chosen m m')

theorem declaredBy_withoutLines (d : Declaration) : declaredBy d.withoutLines = declaredBy d := by
  cases d with
  | binding declarators =>
    rw [Declaration.withoutLines, declaredBy, declaredBy, List.filterMap_map]
    rfl
  | _ => rfl

theorem declaredIn_withoutLines (s : Statement) : declaredIn s.withoutLines = declaredIn s := by
  cases s with
  | declaration d => exact declaredBy_withoutLines d
  | exportDeclaration d => exact declaredBy_withoutLines d
  | exportDefault d value =>
    cases d with
    | none => rfl
    | some d => exact declaredBy_withoutLines d
  | _ => rfl

theorem parts_withoutLines (d : Declaration) : d.withoutLines.parts = d.parts := by
  cases d with
  | binding declarators =>
    rw [Declaration.withoutLines, Declaration.parts, Declaration.parts, List.flatMap_map]
  | _ => rfl

theorem statementParts_withoutLines (s : Statement) : s.withoutLines.parts = s.parts := by
  cases s with
  | declaration d => exact parts_withoutLines d
  | exportDeclaration d => exact parts_withoutLines d
  | exportDefault d value =>
    cases d with
    | none => rfl
    | some d =>
      simp [Statement.withoutLines, Statement.parts, parts_withoutLines]
  | _ => rfl

include h

/-- A respelled module declares the same names. -/
theorem Respells.declaredIn_eq : m'.flatMap declaredIn = m.flatMap declaredIn :=
  h.flatMap_eq declaredIn_withoutLines (fun _ _ _ _ ↦ rfl) fun _ _ _ ↦ rfl

/-- A respelled module holds the same expressions. -/
theorem Respells.roots_eq : m'.roots = m.roots :=
  h.flatMap_eq statementParts_withoutLines (fun _ _ _ _ ↦ rfl) fun _ _ _ ↦ rfl

/-- A respelled module has the same default export. -/
theorem Respells.defaultExport?_eq : defaultExport? m' = defaultExport? m := by
  rw [defaultExport?, defaultExport?, List.filterMap_eq_flatMap_toList,
    List.filterMap_eq_flatMap_toList]
  congr 1
  refine h.flatMap_eq ?_ (fun _ _ _ _ ↦ rfl) fun _ _ _ ↦ rfl
  intro s
  cases s <;> rfl

end

/-! ### Candidates by their names -/

namespace NamedExport

/-- An exported name without its line. -/
def withoutLine : NamedExport → NamedExport
  | .declared name _ value => .declared name 0 value
  | .listed item => .listed { item with line := 0 }

/-- The spelling of an exported name in a clause. -/
def ofNames (names : Text × Text) : NamedExport := .listed ⟨0, names.1, some names.2⟩

/-- A name that is exported in place stands for what is declared under it. -/
def Resolves (declared : Fields Declared) : NamedExport → Prop
  | .declared name _ value =>
    ∃ declaration, declared.get? name = some declaration ∧
      initializerOf declaration = expressionOf value
  | .listed _ => True

theorem candidate?_withoutLine (declared : Fields Declared) (e : NamedExport) :
    e.withoutLine.candidate? declared =
      Option.map Candidate.withoutLine <$> e.candidate? declared := by
  cases e with
  | declared name line value =>
    simp only [withoutLine, candidate?]
    cases expressionOf value <;> rfl
  | listed item =>
    simp only [withoutLine, candidate?]
    cases declared.get? item.name with
    | none => rfl
    | some declaration =>
      dsimp only
      split
      · rfl
      · cases initializerOf declaration <;> rfl

/-- But for its line, the candidate of an exported name depends on the two names, unless it is
exported as default. -/
theorem candidate?_ofNames {declared : Fields Declared} {e : NamedExport}
    (hresolves : e.Resolves declared) (hdefault : e.names.2 ≠ "default") :
    (ofNames e.names).candidate? declared =
      Option.map Candidate.withoutLine <$> e.candidate? declared := by
  rw [← candidate?_withoutLine]
  cases e with
  | declared name line value =>
    obtain ⟨declaration, hget, hvalue⟩ := hresolves
    simp only [names] at hdefault
    simp only [names, ofNames, withoutLine, candidate?, hget, Option.getD_some]
    simp only [if_neg hdefault, if_true, hvalue]
  | listed item => rfl

end NamedExport

/-- In a module with distinct names, a name that is exported in place is the one declared. -/
theorem resolves_of_mem {e : NamedExport} (hnames : ((m.flatMap declaredIn).map (·.1)).Nodup)
    (he : e ∈ m.flatMap namedExports) : e.Resolves (declarations m) := by
  have hget : ∀ name declaration, (name, declaration) ∈ m.flatMap declaredIn →
      (declarations m).get? name = some declaration := by
    intro name declaration hmem
    rw [declarations, Fields.ofList_of_nodup hnames]
    exact Fields.get?_of_mem hnames hmem
  obtain ⟨s, hs, hes⟩ := List.mem_flatMap.mp he
  cases s with
  | exportDeclaration d =>
    cases d with
    | binding declarators =>
      obtain ⟨declarator, hdeclarator, hsome⟩ := List.mem_filterMap.mp hes
      obtain ⟨name, hname, rfl⟩ := Option.map_eq_some_iff.mp hsome
      refine ⟨.variable declarator.value, hget _ _ ?_, rfl⟩
      apply List.mem_flatMap_of_mem hs
      exact List.mem_filterMap.mpr ⟨declarator, hdeclarator, by rw [hname]; rfl⟩
    | function line name parts =>
      rw [List.mem_singleton.mp hes]
      exact ⟨.function, hget _ _ (List.mem_flatMap_of_mem hs List.mem_cons_self), rfl⟩
    | other parts => cases hes
  | exportNames names =>
    obtain ⟨item, -, rfl⟩ := List.mem_map.mp hes
    trivial
  | _ => cases hes

/-- Lists with the same keys have the same images under a function of the keys, but for keys whose
images are known to be the same. -/
theorem map_eq_of_keys_eq {α β κ : Type} {key : α → κ} {f : α → β} {g : κ → β} {p : κ → Bool}
    {xs ys : List α} (hx : ∀ x ∈ xs, p (key x) = false → f x = g (key x))
    (hy : ∀ y ∈ ys, p (key y) = false → f y = g (key y)) (hkeys : ys.map key = xs.map key)
    (hp : (ys.filter fun y ↦ p (key y)).map f = (xs.filter fun x ↦ p (key x)).map f) :
    ys.map f = xs.map f := by
  induction xs generalizing ys with
  | nil => rw [List.map_eq_nil_iff.mp hkeys]
  | cons x xs ih =>
    cases ys with
    | nil => cases hkeys
    | cons y ys =>
      obtain ⟨hkey, hkeys⟩ := List.cons.inj hkeys
      obtain ⟨hxf, hx⟩ := List.forall_mem_cons.mp hx
      obtain ⟨hyf, hy⟩ := List.forall_mem_cons.mp hy
      rw [List.filter_cons, List.filter_cons, hkey] at hp
      rw [List.map_cons, List.map_cons]
      cases hpx : p (key x) with
      | false =>
        simp only [hpx, Bool.false_eq_true, if_false] at hp
        rw [hxf hpx, hyf (hkey ▸ hpx), hkey, ih hx hy hkeys hp]
      | true =>
        simp only [hpx, if_true, List.map_cons] at hp
        obtain ⟨hf, hp⟩ := List.cons.inj hp
        rw [hf, ih hx hy hkeys hp]

/-! ### Modules -/

namespace NamedExport

/-- Whether a name is exported as default. -/
def isDefault (e : NamedExport) : Bool := e.names.2 == "default"

theorem isDefault_withoutLine (e : NamedExport) : e.withoutLine.isDefault = e.isDefault := by
  cases e <;> rfl

end NamedExport

theorem declaredExports_withoutLines (d : Declaration) :
    declaredExports d.withoutLines = (declaredExports d).map NamedExport.withoutLine := by
  cases d with
  | binding declarators =>
    rw [Declaration.withoutLines, declaredExports, declaredExports, List.filterMap_map,
      List.map_filterMap]
    congr 1
    funext d
    rw [Option.map_map]
    rfl
  | _ => rfl

theorem namedExports_withoutLines (s : Statement) :
    namedExports s.withoutLines = (namedExports s).map NamedExport.withoutLine := by
  cases s with
  | exportDeclaration d => exact declaredExports_withoutLines d
  | exportNames names =>
    simp only [Statement.withoutLines, namedExports, List.map_map]
    rfl
  | _ => rfl

/-- The names that a statement exports as default, without their lines. -/
def defaultExports (s : Statement) : List NamedExport :=
  ((namedExports s).filter (·.isDefault)).map NamedExport.withoutLine

theorem defaultExports_withoutLines (s : Statement) :
    defaultExports s.withoutLines = defaultExports s := by
  rw [defaultExports, defaultExports, namedExports_withoutLines, List.filter_map, List.map_map]
  congr 1
  · funext e
    cases e <;> rfl
  · congr 1
    funext e
    exact e.isDefault_withoutLine

theorem filter_isDefault_eq (m : Module) :
    ((m.flatMap namedExports).filter (·.isDefault)).map NamedExport.withoutLine =
      m.flatMap defaultExports := by
  rw [List.filter_flatMap, List.map_flatMap]
  rfl

/-- A declaration of one name exports this name. -/
theorem declaredExports_of_soleName? {d : Declaration} {name : Text}
    (h : d.soleName? = some name) : ∃ e, declaredExports d = [e] ∧ e.names = (name, name) := by
  match d, h with
  | .binding [declarator], h =>
    have hname : declarator.name = some name := h
    exact ⟨.declared name declarator.line declarator.value, by simp [declaredExports, hname], rfl⟩
  | .function line name _, rfl => exact ⟨.declared name line none, rfl, rfl⟩

theorem defaultExports_of_names {s : Statement} {e : NamedExport} (he : namedExports s = [e])
    (hne : e.names.2 ≠ "default") : defaultExports s = [] := by
  have hdefault : e.isDefault = false := beq_eq_false_iff_ne.mpr hne
  rw [defaultExports, he, List.filter_cons_of_neg (by simp [hdefault])]
  rfl

/-- What is exported as default is not respelled. -/
theorem Respells.defaultExports_eq {chosen : Text → Prop} (h : Respells chosen m m')
    (hdefault : ¬ chosen "default") : m'.flatMap defaultExports = m.flatMap defaultExports := by
  have hne : ∀ name, chosen name → name ≠ "default" := by
    rintro name hname rfl
    exact hdefault hname
  refine h.flatMap_eq defaultExports_withoutLines ?_ ?_
  · intro d name hname hchosen
    obtain ⟨e, he, hnames⟩ := declaredExports_of_soleName? hname
    symm
    apply defaultExports_of_names (s := .exportDeclaration d) he
    rw [hnames]
    exact hne name hchosen
  · intro line name hchosen
    exact defaultExports_of_names rfl (hne name hchosen)

/-- A respelled module comes to the same candidates, but for their lines. -/
theorem Respells.results_eq {chosen : Text → Prop} (h : Respells chosen m m')
    (hdefault : ¬ chosen "default") (hnames : ((m.flatMap declaredIn).map (·.1)).Nodup)
    (horder : exportedNamesOf m' = exportedNamesOf m) :
    (results m').map (Option.map Candidate.withoutLine <$> ·) =
      (results m).map (Option.map Candidate.withoutLine <$> ·) := by
  have hdeclared : declarations m' = declarations m := by
    rw [declarations, declarations, h.declaredIn_eq]
  have hnames' : ((m'.flatMap declaredIn).map (·.1)).Nodup := by
    rw [h.declaredIn_eq]
    exact hnames
  rw [results, results, hdeclared, List.map_map, List.map_map]
  refine map_eq_of_keys_eq
    (g := fun names ↦ (NamedExport.ofNames names).candidate? (declarations m))
    (p := fun names ↦ names.2 == "default") ?_ ?_ horder ?_
  · intro e he hne
    exact (NamedExport.candidate?_ofNames (resolves_of_mem hnames he) (by simpa using hne)).symm
  · intro e he hne
    have hresolves := resolves_of_mem hnames' he
    rw [hdeclared] at hresolves
    exact (NamedExport.candidate?_ofNames hresolves (by simpa using hne)).symm
  · have hresult : ((Option.map Candidate.withoutLine <$> ·) ∘
        NamedExport.candidate? (declarations m)) =
        NamedExport.candidate? (declarations m) ∘ NamedExport.withoutLine :=
      funext fun e ↦ (NamedExport.candidate?_withoutLine _ e).symm
    rw [hresult, ← List.map_map, ← List.map_map]
    congr 1
    exact (filter_isDefault_eq m').trans
      ((h.defaultExports_eq hdefault).trans (filter_isDefault_eq m).symm)

theorem gather_withoutLine (rs : List (Except LiteralError (Option Candidate))) :
    gather (rs.map (Option.map Candidate.withoutLine <$> ·)) =
      List.map Candidate.withoutLine <$> gather rs := by
  induction rs with
  | nil => rfl
  | cons r rs ih =>
    rw [List.map_cons, gather_cons, gather_cons, ih]
    rcases r with e | c?
    · rfl
    · show ((c?.map Candidate.withoutLine).toList ++ ·) <$> List.map _ <$> gather rs =
        List.map _ <$> (c?.toList ++ ·) <$> gather rs
      simp only [Functor.map_map]
      cases c? <;> simp

theorem exports_withoutLine (m : Module) :
    OrderedMap.mapValues Candidate.withoutLine <$> exports m =
      (fun cs ↦ OrderedMap.ofList (cs.map fun c ↦ (c.exportName, c))) <$>
        gather ((results m).map (Option.map Candidate.withoutLine <$> ·)) := by
  have hofList : ∀ cs : List Candidate,
      (OrderedMap.ofList (cs.map fun c ↦ (c.exportName, c))).mapValues Candidate.withoutLine =
        OrderedMap.ofList ((cs.map Candidate.withoutLine).map fun c ↦ (c.exportName, c)) := by
    intro cs
    apply OrderedMap.ext
    rw [List.map_map]
    refine (Fields.ofList_mapValues ..).symm.trans ?_
    rw [Fields.mapValues, List.map_map]
    rfl
  rw [exports_eq, gather_withoutLine]
  simp only [Functor.map_map, hofList]

theorem binding_withoutLine (c : Candidate) : c.withoutLine.binding = c.binding := rfl

theorem assign_withoutLine (property : Text) (value : Expression) (c : Candidate) :
    assign property value c.withoutLine = (assign property value c).withoutLine := by
  unfold assign
  split
  · rfl
  · split
    · split
      · split <;> rfl
      · rfl
    · rfl

theorem applyAssignment_withoutLine (stories : OrderedMap Candidate) (a : Assignment) :
    applyAssignment (stories.mapValues Candidate.withoutLine) a =
      OrderedMap.mapValues Candidate.withoutLine <$> applyAssignment stories a := by
  have hbound := isBound_mapValues stories binding_withoutLine
  rw [applyAssignment, applyAssignment, ← isBound, ← isBound, hbound]
  split
  · cases Expression.ofTree a.value with
    | error e => rfl
    | ok value =>
      refine congrArg Except.ok ?_
      rw [OrderedMap.mapValues_mapValues, OrderedMap.mapValues_mapValues]
      congr 1
      funext c
      rw [binding_withoutLine]
      split
      · exact assign_withoutLine a.property value c
      · rfl
  · rfl

theorem foldlM_applyAssignment_withoutLine (stories : OrderedMap Candidate) (as : List Assignment) :
    as.foldlM applyAssignment (stories.mapValues Candidate.withoutLine) =
      OrderedMap.mapValues Candidate.withoutLine <$> as.foldlM applyAssignment stories := by
  induction as generalizing stories with
  | nil => rfl
  | cons a as ih =>
    rw [List.foldlM_cons, List.foldlM_cons, applyAssignment_withoutLine]
    simp [ih]

/-- But for its lines, a file is what its exports without their lines come to. -/
theorem ofModule_withoutLines (path : Option Path) (m : Module) :
    withoutLines <$> ofModule path m =
      (OrderedMap.mapValues Candidate.withoutLine <$> exports m) >>= fun stories ↦
        metaExpressionOf m >>= fun metaExpression ↦
          (fun stories ↦ { path, metaExpression, stories }) <$>
            (assignments m).foldlM applyAssignment stories := by
  rw [ofModule_eq]
  simp [foldlM_applyAssignment_withoutLine, withoutLines]

/-- Whichever of the exported declarations of single names a module spells as plain ones with export
clauses, in the same order of exports, it is the same file but for its lines; or it is none for the
same reason. -/
theorem ofModule_of_respells {chosen : Text → Prop} (path : Option Path)
    (hnames : ((m.flatMap declaredIn).map (·.1)).Nodup) (h : Respells chosen m m')
    (hdefault : ¬ chosen "default") (horder : exportedNamesOf m' = exportedNamesOf m) :
    withoutLines <$> ofModule path m' = withoutLines <$> ofModule path m := by
  have hdeclared : declarations m' = declarations m := by
    rw [declarations, declarations, h.declaredIn_eq]
  have hmeta : metaExpressionOf m' = metaExpressionOf m := by
    rw [metaExpressionOf, metaExpressionOf, h.defaultExport?_eq, hdeclared]
  have hassigned : assignments m' = assignments m := by
    rw [assignments, assignments, Tree.visits_iff.mp m'.visits_roots, h.roots_eq,
      ← Tree.visits_iff.mp m.visits_roots]
  rw [ofModule_withoutLines, ofModule_withoutLines, exports_withoutLine, exports_withoutLine,
    h.results_eq hdefault hnames horder, hmeta, hassigned]

/-- A variable and a function are spelled in the other way, next to a name that stays in its
clause. -/
theorem ofModule_of_respelled_pair :
    let primary : Declaration := .binding [⟨1, some "Primary", some (.object []), []⟩]
    let render : Declaration := .function 2 "Render" []
    let base : Statement := .declaration (.binding [⟨3, some "Base", some (.array []), []⟩])
    let clause : Statement := .exportNames [⟨4, "Base", some "Other"⟩]
    withoutLines <$> ofModule none [.declaration primary, .exportNames [⟨2, "Primary", none⟩],
        base, .exportNames [⟨3, "Render", none⟩], .declaration render, clause] =
      withoutLines <$> ofModule none [.exportDeclaration primary, base, .exportDeclaration render,
        clause] := by
  intro primary render base clause
  have hrespelled : Respells (· ≠ "default")
      [.exportDeclaration primary, base, .exportDeclaration render, clause]
      [.declaration primary, .exportNames [⟨2, "Primary", none⟩], base,
        .exportNames [⟨3, "Render", none⟩], .declaration render, clause] := by
    refine .declare rfl (by decide) rfl (.list (by decide) (.keep rfl ?_))
    exact .list (by decide) (.declare rfl (by decide) rfl (.keep rfl .done))
  exact ofModule_of_respells none (by decide) hrespelled (by decide) rfl

/-- A variable named `default` is a story where it is exported in place, and none where a clause
lists it. -/
theorem not_respells_default :
    let declared : Declaration := .binding [⟨1, some "default", some (.object []), []⟩]
    let inline : Module := [.exportDeclaration declared]
    let listed : Module := [.declaration declared, .exportNames [⟨1, "default", none⟩]]
    ((inline.flatMap declaredIn).map (·.1)).Nodup ∧ Respells (fun _ ↦ True) inline listed ∧
      exportedNamesOf listed = exportedNamesOf inline ∧
      withoutLines <$> ofModule none listed ≠ withoutLines <$> ofModule none inline ∧
      (read none "export const default = {};").toOption.map (·.stories.keys) =
        some [("default" : Text)] ∧
      (read none "const default = {}; export { default };").toOption.map (·.stories.keys) =
        some [] := by
  intro declared inline listed
  refine ⟨by decide, .declare rfl trivial rfl (.list trivial .done), rfl, ?_,
    by decide +kernel, by decide +kernel⟩
  intro heq
  have hkeys := congrArg (fun file ↦ file.toOption.map (·.stories.keys)) heq
  exact absurd hkeys (by decide)

end StoryFile

end StoryCatalog
