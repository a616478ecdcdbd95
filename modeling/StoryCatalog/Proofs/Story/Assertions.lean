import Mathlib.Data.List.Forall2
import StoryCatalog.Proofs.Literal.Assertions
import StoryCatalog.Story.FromFile

/-!
# Story records and assertions

The records of a story file do not depend on the type assertions in it, at any depth: a candidate is
read through the erasure of its expressions, and through whether anything is assigned to its
arguments (`Candidate.toRecord_congr`). In a file that has been read, no assertion stands around
nothing (`StoryFile.isComplete_ofModule`).
-/

namespace StoryCatalog

open Expression (eraseProperties get_eraseProperties)

/-- The meta object that an expression gives does not depend on assertions. -/
theorem MetaObject.ofExpression_erase (e : Expression) : ofExpression e.erase = ofExpression e := by
  rw [ofExpression, ofExpression, Expression.unwrap_erase]
  cases h : e.unwrap with
  | assertion kind operand => exact absurd h (e.unwrap_ne_assertion kind operand)
  | object properties =>
    rw [Expression.erase]
    simp only [get_eraseProperties, Expression.plainString?_erase, Expression.plainFields_erase,
      Expression.plainTexts_erase, Expression.unwrap_erase]
    cases hcomponent : (Expression.get properties "component").unwrap with
    | assertion kind operand =>
      exact absurd hcomponent (Expression.unwrap_ne_assertion _ kind operand)
    | _ => rfl
  | _ => rfl

/-! ### Candidates -/

namespace Candidate

variable {c c' : Candidate}

/-- The candidate without assertions in its expressions. -/
def erase (c : Candidate) : Candidate :=
  { c with initializer := c.initializer.erase, args := c.args.erase }

/-- One candidate comes of another by assertions around parts of its expressions. -/
structure Wraps (c c' : Candidate) : Prop where
  exportName : c'.exportName = c.exportName
  line : c'.line = c.line
  initializer : c.initializer.Wraps c'.initializer
  args : c.args.Wraps c'.args
  storyName : c'.storyName = c.storyName
  localName : c'.localName = c.localName

/-- No assertion around nothing is assigned to the arguments. -/
def IsComplete (c : Candidate) : Prop := c.args.unwrap.isAbsent = c.args.isAbsent

theorem Wraps.erase_eq (h : c.Wraps c') : c'.erase = c.erase := by
  cases c
  cases c'
  obtain ⟨rfl, rfl, hinitializer, hargs, rfl, rfl⟩ := h
  simp only [erase, hinitializer.erase_eq, hargs.erase_eq]

theorem erase_erase (c : Candidate) : c.erase.erase = c.erase := by
  simp only [erase, Expression.erase_erase]

theorem storyObject?_erase (c : Candidate) :
    c.erase.storyObject? = c.storyObject?.map eraseProperties := by
  rw [storyObject?, storyObject?, erase, Expression.unwrap_erase]
  cases h : c.initializer.unwrap with
  | assertion kind operand => exact absurd h (c.initializer.unwrap_ne_assertion kind operand)
  | _ => rfl

theorem objectProperty_erase (c : Candidate) (key : Text) :
    c.erase.objectProperty key = (c.objectProperty key).erase := by
  rw [objectProperty, objectProperty, storyObject?_erase]
  cases c.storyObject? with
  | none => rfl
  | some properties => exact get_eraseProperties properties key

section

variable (herase : c'.erase = c.erase)

include herase

/-- What is read off a property of the story object, whatever assertions stand in it. -/
private theorem read_objectProperty {β : Type} {read : Expression → β}
    (hread : ∀ e : Expression, read e.erase = read e) (key : Text) :
    read (c'.objectProperty key) = read (c.objectProperty key) := by
  rw [← hread, ← objectProperty_erase, herase, objectProperty_erase, hread]

theorem displayName_congr : c'.displayName = c.displayName := by
  have hexport : c'.exportName = c.exportName := (congrArg Candidate.exportName herase :)
  have hname : c'.storyName = c.storyName := (congrArg Candidate.storyName herase :)
  have hobject : displayName.fromObject c' = displayName.fromObject c := by
    rw [displayName.fromObject, displayName.fromObject, hexport,
      read_objectProperty herase Expression.plainString?_erase]
  rw [displayName, displayName, hname, hobject]

theorem storyArgs_congr (hargs : c'.args.isAbsent = c.args.isAbsent) :
    c'.storyArgs = c.storyArgs := by
  have hassigned : c'.args.plainFields = c.args.plainFields := by
    rw [← Expression.plainFields_erase, ← Expression.plainFields_erase c.args]
    exact congrArg (fun c : Candidate ↦ c.args.plainFields) herase
  rw [storyArgs, storyArgs, hargs, hassigned,
    read_objectProperty herase Expression.plainFields_erase]

/-- The record of a candidate depends on its expressions without assertions, and on whether anything
is assigned to its arguments. -/
theorem toRecord_congr (hargs : c'.args.isAbsent = c.args.isAbsent) (info : MetaObject)
    (importPath source : Text) :
    c'.toRecord info importPath source = c.toRecord info importPath source := by
  have hexport : c'.exportName = c.exportName := (congrArg Candidate.exportName herase :)
  rw [toRecord, toRecord, hexport, displayName_congr herase, storyArgs_congr herase hargs,
    read_objectProperty herase Expression.plainFields_erase,
    read_objectProperty herase Expression.plainFields_erase,
    read_objectProperty herase Expression.plainTexts_erase]

end

theorem toRecord_erase (h : c.IsComplete) (info : MetaObject) (importPath source : Text) :
    c.erase.toRecord info importPath source = c.toRecord info importPath source :=
  toRecord_congr (erase_erase c) ((Expression.isAbsent_erase c.args).trans h) info importPath source

theorem Wraps.toRecord_eq (h : c.Wraps c') (info : MetaObject) (importPath source : Text) :
    c'.toRecord info importPath source = c.toRecord info importPath source :=
  toRecord_congr h.erase_eq h.args.isAbsent_eq info importPath source

end Candidate

/-! ### Story files -/

namespace StoryFile

open Script

variable {f f' : StoryFile}

/-- The file without assertions in its expressions. -/
def erase (f : StoryFile) : StoryFile :=
  { f with
    metaExpression := f.metaExpression.erase
    stories := f.stories.mapValues Candidate.erase }

/-- One file comes of another by assertions around parts of its expressions. -/
structure Wraps (f f' : StoryFile) : Prop where
  path : f'.path = f.path
  metaExpression : f.metaExpression.Wraps f'.metaExpression
  keys : f'.stories.keys = f.stories.keys
  stories : List.Forall₂ Candidate.Wraps f.stories.values f'.stories.values

/-- No assertion around nothing is assigned to the arguments of a story. -/
def IsComplete (f : StoryFile) : Prop := ∀ c ∈ f.stories.values, c.IsComplete

theorem records_erase (h : f.IsComplete) (importPath source : Text) :
    f.erase.records importPath source = f.records importPath source := by
  rw [records, records, erase]
  simp only [values_mapValues, List.map_map, MetaObject.ofExpression_erase]
  apply List.map_congr_left
  intro c hc
  exact Candidate.toRecord_erase (h c hc) _ importPath source

private theorem map_toRecord_eq {cs cs' : List Candidate} (h : List.Forall₂ Candidate.Wraps cs cs')
    (info : MetaObject) (importPath source : Text) :
    cs'.map (·.toRecord info importPath source) = cs.map (·.toRecord info importPath source) := by
  induction h with
  | nil => rfl
  | cons hc _ ih => rw [List.map_cons, List.map_cons, hc.toRecord_eq, ih]

theorem Wraps.records_eq (h : f.Wraps f') (importPath source : Text) :
    f'.records importPath source = f.records importPath source := by
  have hmeta : MetaObject.ofExpression f'.metaExpression =
      MetaObject.ofExpression f.metaExpression := by
    rw [← MetaObject.ofExpression_erase, h.metaExpression.erase_eq, MetaObject.ofExpression_erase]
  rw [records, records, hmeta]
  exact map_toRecord_eq h.stories _ importPath source

/-- Assertions carry nothing that records are made of. A file without its assertions, and one with
more of them around any parts of its expressions, has the same records; what an expression gives as
a value, as fields, as a text and as a meta object does not depend on assertions either. -/
theorem records_of_assertions (f : StoryFile) (importPath source : Text) :
    (f.IsComplete → f.erase.records importPath source = f.records importPath source) ∧
      (∀ f', f.Wraps f' → f'.records importPath source = f.records importPath source) ∧
      ∀ e : Expression, e.erase.plain = e.plain ∧ e.erase.plainFields = e.plainFields ∧
        e.erase.plainString? = e.plainString? ∧
        MetaObject.ofExpression e.erase = MetaObject.ofExpression e := by
  constructor
  · intro h
    exact records_erase h importPath source
  · constructor
    · intro f' h
      exact h.records_eq importPath source
    · intro e
      exact ⟨e.plain_erase, e.plainFields_erase, e.plainString?_erase,
        MetaObject.ofExpression_erase e⟩

/-- A file with one story, whose expressions hold assertions, and the same file with one more around
the label among the arguments. -/
theorem records_of_nested_assertions :
    let file (label : Expression) : StoryFile :=
      { metaExpression := .assertion "satisfies_expression" (.object
          [(some "title", .assertion "as_expression" (.string "A"))])
        stories := .ofList [("B",
          { exportName := "B"
            line := 2
            initializer := .assertion "as_expression" (.object
              [(some "args", .assertion "as_expression" (.object [(some "label", label)]))]) })] }
    let wrapped := file (.assertion "as_expression" (.string "x"))
    (file (.string "x")).IsComplete ∧ (file (.string "x")).Wraps wrapped ∧
      wrapped.records "./A.stories.ts" [] = (file (.string "x")).records "./A.stories.ts" [] ∧
      (file (.string "x")).erase.records "./A.stories.ts" [] =
        (file (.string "x")).records "./A.stories.ts" [] ∧
      (wrapped.records "./A.stories.ts" []).map (·.args.get? "label") = [some (.string "x")] := by
  intro file wrapped
  have hcomplete : (file (.string "x")).IsComplete := by
    intro c hc
    rw [List.mem_singleton.mp hc]
    rfl
  have hwraps : (file (.string "x")).Wraps wrapped := by
    constructor
    · rfl
    · exact .refl _
    · rfl
    · apply List.Forall₂.cons _ .nil
      constructor
      · rfl
      · rfl
      · -- Down to the label: through two assertions, each around an object with one property.
        exact .single (.operand _ (.property [] [] _ (.operand _
          (.property [] [] _ (.here _ rfl)))))
      · exact .refl _
      · rfl
      · rfl
  obtain ⟨herase, hwrapped, -⟩ := records_of_assertions (file (.string "x")) "./A.stories.ts" []
  exact ⟨hcomplete, hwraps, hwrapped wrapped hwraps, herase hcomplete, rfl⟩

/-! ### Files that are read -/

/-- Within the assertions that a tree begins with stands something. -/
private theorem isAbsent_unwrap_ofTree (tree : Tree) :
    Yields (fun e ↦ e.unwrap.isAbsent = false) (Expression.ofTree tree) := by
  cases tree with
  | assertion kind operand types => exact (isAbsent_unwrap_ofTree operand).map fun _ h ↦ h
  | string pieces => exact Yields.map (P := fun _ ↦ True) (fun _ _ ↦ trivial) fun _ _ ↦ rfl
  | template body substitutions =>
    cases substitutions with
    | nil => exact Yields.map (P := fun _ ↦ True) (fun _ _ ↦ trivial) fun _ _ ↦ rfl
    | cons first others => exact .ok rfl
  | object members => exact Yields.map (P := fun _ ↦ True) (fun _ _ ↦ trivial) fun _ _ ↦ rfl
  | array elements => exact Yields.map (P := fun _ ↦ True) (fun _ _ ↦ trivial) fun _ _ ↦ rfl
  | number spelling =>
    refine .ok ?_
    split <;> rfl
  | unary operator operand text =>
    refine .ok ?_
    split <;> rfl
  | _ => exact .ok rfl

/-- In a file that is read, no assertion stands around nothing. -/
theorem isComplete_ofModule (path : Option Path) (m : Module) :
    Yields IsComplete (ofModule path m) := by
  intro f hf c hc
  obtain ⟨entry, hentry, rfl⟩ := List.mem_map.mp hc
  obtain ⟨-, hargs⟩ := (isRead_ofModule path m f hf).stories entry hentry
  apply hargs.holds (P := fun e ↦ e.unwrap.isAbsent = e.isAbsent) rfl
  intro tree e he
  have hunwrap : e.unwrap.isAbsent = false := isAbsent_unwrap_ofTree tree e he
  rw [hunwrap]
  cases e with
  | absent => exact hunwrap.symm
  | _ => rfl

end StoryFile

end StoryCatalog
