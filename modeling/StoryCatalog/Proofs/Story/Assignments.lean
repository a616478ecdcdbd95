import StoryCatalog.Proofs.Literal.Plain
import StoryCatalog.Proofs.Script.Walk
import StoryCatalog.Proofs.Story.Exports

/-!
# Assignments to stories

What is assigned to `args` and `storyName` of a binding belongs to every candidate of this binding.
One assignment changes the candidates of its binding (`applyAssignment_ok`), a run of assignments
leaves each field at the last one that sets it (`args_actAll`, `storyName_actAll`), and a file is
what its exports come to after the assignments of the whole module (`ofModule_ok_iff`). Where the
assignments stand among the exports does not matter (`ofModule_of_filter_eq`).
-/

namespace StoryCatalog.StoryFile

open Script

variable {m m' : Module} {stories stories' : OrderedMap Candidate} {as : List Assignment}
  {c : Candidate}

/-! ### What a tree assigns -/

/-- What a tree assigns to a property of a binding, if it does. -/
def assignedTo? (binding property : Text) : Tree → Option Tree
  | .assignment (.property target name _) value _ =>
    if plainName? target = some binding ∧ name = property then some value else none
  | _ => none

/-- The story name that an expression gives: a string literal that is not empty, possibly in
assertions. -/
def storyName? (e : Expression) : Option Text := e.plainString?.filter (!·.isEmpty)

/-- The expression that a tree is read as; absent if it cannot be read. -/
def valueOf (tree : Tree) : Expression := (Expression.ofTree tree).toOption.getD .absent

theorem valueOf_of_ofTree {tree : Tree} {e : Expression} (h : Expression.ofTree tree = .ok e) :
    valueOf tree = e := by
  rw [valueOf, h]
  rfl

/-! ### One assignment -/

/-- What an assignment gives a property of a binding. -/
def Assignment.value? (binding property : Text) (a : Assignment) : Option Tree :=
  if a.binding = binding ∧ a.property = property then some a.value else none

/-- The assignments of a module to a property are those that its trees make. -/
theorem filterMap_value?_assignments (m : Module) (binding property : Text) :
    (assignments m).filterMap (Assignment.value? binding property) =
      m.expressions.filterMap (assignedTo? binding property) := by
  rw [assignments, List.filterMap_filterMap]
  apply List.filterMap_congr
  intro tree _
  cases tree with
  | assignment target value more =>
    cases target with
    | property target name text =>
      cases hname : plainName? target with
      | none => simp [assignedTo?, hname]
      | some other => simp [assignedTo?, hname, Assignment.value?]
    | _ => rfl
  | _ => rfl

/-- A candidate after an assignment. -/
def Assignment.act (a : Assignment) (c : Candidate) : Candidate :=
  if c.binding = a.binding then assign a.property (valueOf a.value) c else c

theorem binding_act (a : Assignment) (c : Candidate) : (a.act c).binding = c.binding := by
  unfold Assignment.act
  split
  · exact binding_assign _ _ c
  · rfl

theorem assign_storyName (value : Expression) (c : Candidate) :
    assign "storyName" value c = { c with storyName := (storyName? value).or c.storyName } := by
  rw [assign, if_neg (by decide), if_pos rfl, storyName?, Expression.plainString?]
  cases value.unwrap with
  | string name => cases h : name.isEmpty <;> simp [Option.filter, h]
  | _ => rfl

theorem assign_of_ne {property : Text} (hargs : property ≠ "args")
    (hname : property ≠ "storyName") (value : Expression) (c : Candidate) :
    assign property value c = c := by
  rw [assign, if_neg hargs, if_neg hname]

private theorem args_ne_storyName : ("args" : Text) ≠ "storyName" := by decide

/-- An assignment changes the args of a candidate and its story name, and nothing else. -/
theorem act_eq (a : Assignment) (c : Candidate) :
    a.act c = { c with
      args := ((a.value? c.binding "args").map valueOf).getD c.args
      storyName := ((a.value? c.binding "storyName").bind (storyName? ∘ valueOf)).or
        c.storyName } := by
  by_cases hbinding : a.binding = c.binding
  · rw [Assignment.act, if_pos hbinding.symm]
    by_cases hargs : a.property = "args"
    · simp [Assignment.value?, hbinding, hargs, args_ne_storyName, assign]
    · by_cases hname : a.property = "storyName"
      · rw [hname, assign_storyName]
        simp [Assignment.value?, hbinding, hname, args_ne_storyName.symm]
      · rw [assign_of_ne hargs hname]
        simp [Assignment.value?, hargs, hname]
  · simp [Assignment.act, Assignment.value?, hbinding, Ne.symm hbinding]

/-- An assignment that succeeds changes the candidates of its binding. If there is one, the value is
read. -/
theorem applyAssignment_ok {a : Assignment} (h : applyAssignment stories a = .ok stories') :
    stories' = stories.mapValues a.act ∧
      ∀ c ∈ stories.values, c.binding = a.binding →
        Expression.ofTree a.value = .ok (valueOf a.value) := by
  unfold applyAssignment at h
  split at h
  · cases hvalue : Expression.ofTree a.value with
    | error e =>
      rw [hvalue] at h
      cases h
    | ok value =>
      rw [hvalue] at h
      cases h
      have hact : a.act =
          fun c ↦ if c.binding = a.binding then assign a.property value c else c := by
        funext c
        rw [Assignment.act, valueOf_of_ofTree hvalue]
      rw [hact, valueOf_of_ofTree hvalue]
      exact ⟨rfl, fun _ _ _ ↦ rfl⟩
  · next hnone =>
    cases h
    have hother : ∀ c ∈ stories.values, c.binding ≠ a.binding := by
      simpa using hnone
    constructor
    · symm
      apply OrderedMap.mapValues_of_forall
      intro c hc
      rw [Assignment.act, if_neg (hother c hc)]
    · intro c hc hbinding
      exact absurd hbinding (hother c hc)

/-! ### A run of assignments -/

/-- A field that each step of a fold either sets or leaves is as the last step that sets it says,
for steps that keep what the setting depends on. -/
private theorem field_foldl {α β σ : Type} {step : σ → α → σ} {field : σ → β} {set? : α → Option β}
    {P : σ → Prop} (hstep : ∀ s a, P s → P (step s a) ∧
      field (step s a) = (set? a).getD (field s)) {s : σ} (hs : P s) (as : List α) :
    field (as.foldl step s) = (as.filterMap set?).getLast?.getD (field s) := by
  induction as generalizing s with
  | nil => rfl
  | cons a as ih =>
    obtain ⟨hkept, hset⟩ := hstep s a hs
    rw [List.foldl_cons, ih hkept, hset]
    cases h : set? a with
    | none => rw [List.filterMap_cons_none h, Option.getD_none]
    | some b =>
      rw [List.filterMap_cons_some h, List.getLast?_cons, Option.getD_some, Option.getD_some]

/-- A candidate after assignments, one after another. -/
def actAll (as : List Assignment) (c : Candidate) : Candidate :=
  as.foldl (fun c a ↦ a.act c) c

theorem args_actAll (as : List Assignment) (c : Candidate) :
    (actAll as c).args =
      ((as.filterMap (Assignment.value? c.binding "args")).getLast?.map valueOf).getD c.args := by
  have hstep : ∀ (d : Candidate) (a : Assignment), d.binding = c.binding →
      (a.act d).binding = c.binding ∧
        (a.act d).args = ((a.value? c.binding "args").map valueOf).getD d.args := by
    intro d a hd
    rw [binding_act, ← hd, act_eq]
    exact ⟨rfl, rfl⟩
  rw [actAll, field_foldl hstep rfl, ← List.map_filterMap, List.getLast?_map]

theorem storyName_actAll (as : List Assignment) (c : Candidate) :
    (actAll as c).storyName =
      ((as.filterMap (Assignment.value? c.binding "storyName")).filterMap
        (storyName? ∘ valueOf)).getLast?.or c.storyName := by
  have hor : ∀ new old : Option Text, (new.map some).getD old = new.or old := by
    intro new old
    cases new <;> rfl
  have hstep : ∀ (d : Candidate) (a : Assignment), d.binding = c.binding →
      (a.act d).binding = c.binding ∧ (a.act d).storyName =
        (((a.value? c.binding "storyName").bind (storyName? ∘ valueOf)).map some).getD
          d.storyName := by
    intro d a hd
    rw [binding_act, ← hd, act_eq, hor]
    exact ⟨rfl, rfl⟩
  rw [actAll, field_foldl hstep rfl, ← List.map_filterMap, List.getLast?_map, hor,
    List.filterMap_filterMap]

/-- Nothing but the args and the story name of a candidate changes. -/
theorem actAll_eq (as : List Assignment) (c : Candidate) :
    actAll as c = { c with args := (actAll as c).args, storyName := (actAll as c).storyName } := by
  induction as generalizing c with
  | nil => rfl
  | cons a as ih =>
    rw [actAll, List.foldl_cons, ← actAll, ih (a.act c), act_eq]

/-- Assignments that succeed change the candidates one by one, and the values for those that there
are have been read. -/
theorem foldlM_applyAssignment_ok (h : as.foldlM applyAssignment stories = .ok stories') :
    stories' = stories.mapValues (actAll as) ∧
      ∀ a ∈ as, ∀ c ∈ stories.values, c.binding = a.binding →
        Expression.ofTree a.value = .ok (valueOf a.value) := by
  induction as generalizing stories with
  | nil =>
    cases h
    constructor
    · exact (OrderedMap.mapValues_of_forall fun _ _ ↦ rfl).symm
    · simp
  | cons a as ih =>
    rw [List.foldlM_cons] at h
    cases hfirst : applyAssignment stories a with
    | error e =>
      rw [hfirst] at h
      cases h
    | ok next =>
      rw [hfirst] at h
      obtain ⟨rfl, hread⟩ := applyAssignment_ok hfirst
      obtain ⟨rfl, hreads⟩ := ih h
      constructor
      · exact OrderedMap.mapValues_mapValues ..
      · intro b hb c hc hbinding
        cases hb with
        | head => exact hread c hc hbinding
        | tail _ hb =>
          apply hreads b hb (a.act c)
          · rw [values_mapValues]
            exact List.mem_map_of_mem hc
          · rw [binding_act, hbinding]

/-- Nothing is assigned to an export before assignments are looked at. -/
theorem isUnassigned_exports (m : Module) :
    Yields (fun stories ↦ ∀ entry ∈ stories.fields,
      entry.2.args = .absent ∧ entry.2.storyName = none) (exports m) :=
  yields_exports (P := fun c ↦ c.args = .absent ∧ c.storyName = none)
    (fun _ _ _ _ _ ↦ ⟨rfl, rfl⟩) m

/-- A candidate has what the last of the visited trees that assigns to the args of its binding
assigns to them, and as its story name the last string that is assigned to it and is not empty. -/
structure IsAssigned (visited : List Tree) (c : Candidate) : Prop where
  args : (visited.filterMap (assignedTo? c.binding "args")).getLast?.elim (.ok .absent)
    Expression.ofTree = .ok c.args
  storyName : ((visited.filterMap (assignedTo? c.binding "storyName")).filterMap fun value ↦
    (Expression.ofTree value).toOption.bind storyName?).getLast? = c.storyName

theorem binding_actAll (as : List Assignment) (c : Candidate) :
    (actAll as c).binding = c.binding := by
  rw [actAll_eq]
  rfl

/-- What a candidate has after all assignments is what the trees assign to its binding. -/
theorem isAssigned_actAll {c : Candidate} (hargs : c.args = .absent) (hname : c.storyName = none)
    (hread : ∀ a ∈ assignments m, c.binding = a.binding →
      Expression.ofTree a.value = .ok (valueOf a.value)) :
    IsAssigned m.expressions (actAll (assignments m) c) := by
  have hvalues : ∀ property,
      ∀ value ∈ m.expressions.filterMap (assignedTo? c.binding property),
        Expression.ofTree value = .ok (valueOf value) := by
    intro property value hvalue
    rw [← filterMap_value?_assignments] at hvalue
    obtain ⟨a, ha, hset⟩ := List.mem_filterMap.mp hvalue
    rw [Assignment.value?, Option.ite_none_right_eq_some] at hset
    obtain ⟨⟨hbinding, -⟩, heq⟩ := hset
    cases heq
    exact hread a ha hbinding.symm
  constructor
  · rw [binding_actAll, args_actAll, filterMap_value?_assignments, hargs]
    cases hlast : (m.expressions.filterMap (assignedTo? c.binding "args")).getLast? with
    | none => rfl
    | some value => exact hvalues "args" value (List.mem_of_getLast? hlast)
  · rw [binding_actAll, storyName_actAll, filterMap_value?_assignments, hname, Option.or_none]
    congr 1
    apply List.filterMap_congr
    intro value hvalue
    rw [hvalues "storyName" value hvalue]
    rfl

/-! ### Which part of a module counts -/

/-- Whether a statement declares or exports something. -/
def isNaming : Statement → Bool
  | .other _ => false
  | _ => true

theorem flatMap_filter_isNaming {α : Type} {f : Statement → List α}
    (hf : ∀ parts, f (.other parts) = []) (m : Module) :
    (m.filter isNaming).flatMap f = m.flatMap f := by
  induction m with
  | nil => rfl
  | cons statement m ih =>
    cases statement with
    | other parts => rw [List.filter_cons_of_neg (by simp [isNaming]), ih, List.flatMap_cons, hf,
        List.nil_append]
    | _ => rw [List.filter_cons_of_pos rfl, List.flatMap_cons, List.flatMap_cons, ih]

theorem declarations_filter (m : Module) :
    declarations (m.filter isNaming) = declarations m := by
  rw [declarations, declarations, flatMap_filter_isNaming fun _ ↦ rfl]

/-- The exports of a module, before assignments, depend on what it declares and exports. -/
theorem exports_filter (m : Module) : exports (m.filter isNaming) = exports m := by
  rw [exports_eq, exports_eq, results, results, declarations_filter,
    flatMap_filter_isNaming fun _ ↦ rfl]

/-- The meta object of a module depends on what it declares and exports. -/
theorem metaExpressionOf_filter (m : Module) :
    metaExpressionOf (m.filter isNaming) = metaExpressionOf m := by
  have hdefault : defaultExport? (m.filter isNaming) = defaultExport? m := by
    rw [defaultExport?, defaultExport?, List.filterMap_filter]
    congr 2
    funext statement
    cases statement <;> rfl
  rw [metaExpressionOf, metaExpressionOf, hdefault, declarations_filter]

/-- Whether an assignment is to a binding of a story. -/
def isBound (stories : OrderedMap Candidate) (a : Assignment) : Bool :=
  stories.values.any (·.binding == a.binding)

theorem isBound_mapValues (stories : OrderedMap Candidate) {f : Candidate → Candidate}
    (hf : ∀ c, (f c).binding = c.binding) :
    isBound (stories.mapValues f) = isBound stories := by
  funext a
  rw [isBound, isBound, values_mapValues, List.any_map]
  congr 1
  funext c
  rw [Function.comp_apply, hf]

/-- Assignments to a binding that no story has change nothing. -/
theorem foldlM_applyAssignment_filter (stories : OrderedMap Candidate) (as : List Assignment) :
    (as.filter (isBound stories)).foldlM applyAssignment stories =
      as.foldlM applyAssignment stories := by
  induction as generalizing stories with
  | nil => rfl
  | cons a as ih =>
    cases hbound : isBound stories a with
    | false =>
      have hsame : applyAssignment stories a = .ok stories := by
        rw [applyAssignment, ← isBound, hbound]
        rfl
      rw [List.filter_cons_of_neg (by simp [hbound]), ih, List.foldlM_cons, hsame]
      rfl
    | true =>
      rw [List.filter_cons_of_pos hbound, List.foldlM_cons, List.foldlM_cons]
      cases hfirst : applyAssignment stories a with
      | error e => rfl
      | ok next =>
        obtain ⟨rfl, -⟩ := applyAssignment_ok hfirst
        rw [← isBound_mapValues stories (binding_act a)]
        exact ih (stories.mapValues a.act)

/-! ### Files -/

variable {path : Option Path} {file : StoryFile}

/-- A file is what its exports come to after the assignments of the whole module, with the meta
object. -/
theorem ofModule_ok_iff :
    ofModule path m = .ok file ↔
      file.path = path ∧ metaExpressionOf m = .ok file.metaExpression ∧
        ∃ stories, exports m = .ok stories ∧
          (assignments m).foldlM applyAssignment stories = .ok file.stories := by
  simp only [ofModule_eq, bind_eq_ok_iff]
  constructor
  · rintro ⟨stories, hexports, metaExpression, hmeta, stories', hassigned, hfile⟩
    cases hfile
    exact ⟨rfl, hmeta, stories, hexports, hassigned⟩
  · rintro ⟨rfl, hmeta, stories, hexports, hassigned⟩
    exact ⟨stories, hexports, file.metaExpression, hmeta, file.stories, hassigned, rfl⟩

theorem isAssigned_of_mem_stories (h : ofModule path m = .ok file) :
    ∀ c ∈ file.stories.values, IsAssigned m.expressions c := by
  obtain ⟨-, -, stories, hexports, hassigned⟩ := ofModule_ok_iff.mp h
  obtain ⟨hstories, hread⟩ := foldlM_applyAssignment_ok hassigned
  intro c hc
  rw [hstories, values_mapValues] at hc
  obtain ⟨exported, hexported, rfl⟩ := List.mem_map.mp hc
  obtain ⟨entry, hentry, rfl⟩ := List.mem_map.mp hexported
  obtain ⟨hargs, hname⟩ := isUnassigned_exports m stories hexports entry hentry
  exact isAssigned_actAll hargs hname fun a ha ↦ hread a ha entry.2 hexported

/-- What is assigned to a binding is the same for all its candidates. -/
theorem IsAssigned.eq_of_binding {visited : List Tree} {c d : Candidate}
    (hc : IsAssigned visited c) (hd : IsAssigned visited d) (hbinding : c.binding = d.binding) :
    c.args = d.args ∧ c.storyName = d.storyName := by
  constructor
  · have hargs := hc.args
    rw [hbinding, hd.args] at hargs
    exact (Except.ok.inj hargs).symm
  · rw [← hc.storyName, ← hd.storyName, hbinding]

/-- A module with the same declarations and exports that assigns the same to the bindings of the
stories, wherever the assignments stand, is the same file. -/
theorem ofModule_of_filter_eq (h : ofModule path m = .ok file)
    (hnaming : m'.filter isNaming = m.filter isNaming)
    (hbound : (assignments m').filter (isBound file.stories) =
      (assignments m).filter (isBound file.stories)) :
    ofModule path m' = .ok file := by
  obtain ⟨hpath, hmeta, stories, hexports, hassigned⟩ := ofModule_ok_iff.mp h
  have hsame : isBound file.stories = isBound stories := by
    rw [(foldlM_applyAssignment_ok hassigned).1]
    exact isBound_mapValues stories (binding_actAll _)
  rw [hsame] at hbound
  apply ofModule_ok_iff.mpr
  refine ⟨hpath, ?_, stories, ?_, ?_⟩
  · rw [← metaExpressionOf_filter, hnaming, metaExpressionOf_filter, hmeta]
  · rw [← exports_filter, hnaming, exports_filter, hexports]
  · rw [← foldlM_applyAssignment_filter, hbound, foldlM_applyAssignment_filter, hassigned]

/-- After all assignments, every candidate has what the last assignment to its binding says, and
candidates of one binding have the same. Only what a module declares and exports and what it assigns
to bindings of its stories counts, and not where the assignments stand. -/
theorem isAssigned_of_ofModule (h : ofModule path m = .ok file) :
    (∃ visited, Tree.Visits m.roots visited ∧ ∀ c ∈ file.stories.values, IsAssigned visited c) ∧
      (∀ c ∈ file.stories.values, ∀ d ∈ file.stories.values, c.binding = d.binding →
        c.args = d.args ∧ c.storyName = d.storyName) ∧
      ∀ m' : Module, m'.filter isNaming = m.filter isNaming →
        (assignments m').filter (isBound file.stories) =
          (assignments m).filter (isBound file.stories) →
        ofModule path m' = .ok file := by
  have hassigned := isAssigned_of_mem_stories h
  refine ⟨⟨m.expressions, m.visits_roots, hassigned⟩, ?_, ?_⟩
  · intro c hc d hd hbinding
    exact (hassigned c hc).eq_of_binding (hassigned d hd) hbinding
  · intro m' hnaming hbound
    exact ofModule_of_filter_eq h hnaming hbound

/-- A binding that is exported under two names, with assignments before and behind its exports. -/
def twiceExported (before behind : List Tree) : Module :=
  [.other before, .declaration (.binding [⟨1, some "Base", some (.object []), []⟩]),
    .exportNames [⟨2, "Base", some "Primary"⟩, ⟨2, "Base", some "Secondary"⟩], .other behind]

/-- Args and a name are assigned before the exports or behind them, and a number to the name after
this: both stories have the args and the name. -/
theorem isAssigned_twiceExported :
    let base (property : Text) : Tree := .property (.identifier "Base") property property
    let assigned : List Tree := [.assignment (base "args") (.array []) [],
      .assignment (base "storyName") (.string [.fragment "Named"]) [],
      .assignment (base "storyName") (.number "1") []]
    ∃ file, ofModule none (twiceExported assigned []) = .ok file ∧
      ofModule none (twiceExported [] assigned) = .ok file ∧
      file.stories.values.map (·.args) = [.array [], .array []] ∧
      file.stories.values.map (·.storyName) = [some ("Named" : Text), some ("Named" : Text)] := by
  intro base assigned
  have hmodule : ofModule none (twiceExported assigned []) = .ok _ := rfl
  have hfile := isAssigned_of_ofModule hmodule
  exact ⟨_, hmodule, hfile.2.2 (twiceExported [] assigned) rfl rfl, rfl, rfl⟩

end StoryCatalog.StoryFile
