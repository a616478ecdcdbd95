import StoryCatalog.Fields
import StoryCatalog.Literal.Expression
import StoryCatalog.Path
import StoryCatalog.Text.Utf8
import StoryCatalog.Script.Module

/-!
# Story files

What a module says about stories: the meta object that it exports as default, and its named
exports, each of which may be a story. Assignments to `args` and `storyName` of a binding belong
to every export of that binding, wherever in the file they stand; the last one counts.
-/

namespace StoryCatalog

/-- A named export that may be a story. -/
structure Candidate where
  exportName : Text
  line : Nat
  initializer : Expression := .absent
  args : Expression := .absent
  storyName : Option Text := none
  /-- The name of the binding, where it is exported under another one. -/
  localName : Option Text := none
  deriving Inhabited

namespace Candidate

/-- The name that assignments in the file use. -/
def binding (c : Candidate) : Text :=
  match c.localName with
  | some name => if name.isEmpty then c.exportName else name
  | none => c.exportName

/-- The properties of the story object, if the export is initialized with one. -/
def storyObject? (c : Candidate) : Option (List (Option Text × Expression)) :=
  match c.initializer.unwrap with
  | .object properties => some properties
  | _ => none

end Candidate

/-- What a story file says. -/
structure StoryFile where
  path : Option Path := none
  metaExpression : Expression := .absent
  stories : OrderedMap Candidate := .empty
  deriving Inhabited

namespace StoryFile

open Script

/-- What a name at the top of a module stands for. -/
inductive Declared where
  | variable (value : Option Tree)
  | function

/-- The names that a declaration introduces. -/
def declaredBy : Declaration → List (Text × Declared)
  | .binding declarators =>
    declarators.filterMap fun declarator ↦
      declarator.name.map fun name ↦ (name, .variable declarator.value)
  | .function _ name _ => [(name, .function)]
  | .other _ => []

/-- The names that a statement introduces, exported or not. -/
def declaredIn : Statement → List (Text × Declared)
  | .declaration declared => declaredBy declared
  | .exportDeclaration declared => declaredBy declared
  | .exportDefault (some declared) _ => declaredBy declared
  | _ => []

/-- The names at the top of a module; of two declarations of a name the later one counts. -/
def declarations (m : Module) : Fields Declared := Fields.ofList (m.flatMap declaredIn)

/-- What is known of a value that may be missing. -/
def expressionOf (value : Option Tree) : Except LiteralError Expression :=
  match value with
  | some tree => Expression.ofTree tree
  | none => .ok .absent

/-- The candidates of an exported declaration. -/
def exportedBy : Declaration → Except LiteralError (List Candidate)
  | .binding declarators =>
    (declarators.filterMap fun d ↦ d.name.map fun name ↦ (name, d)).mapM fun (name, d) ↦ do
      return { exportName := name, line := d.line, initializer := ← expressionOf d.value }
  | .function line name _ => .ok [{ exportName := name, line }]
  | .other _ => .ok []

/-- The candidates of an export clause: its names that the module declares, the default left out. -/
def exportedNames (declared : Fields Declared) (names : List ExportName) :
    Except LiteralError (List Candidate) := do
  let found ← names.mapM fun item ↦ do
    match declared.get? item.name with
    | none => return none
    | some declaration =>
      let exported := item.exportedAs.getD item.name
      if exported = ("default" : Text) then return none
      let initializer ←
        match declaration with
        | .variable value => expressionOf value
        | .function => pure .absent
      return some
        { exportName := exported
          line := item.line
          initializer
          localName := if item.name = exported then none else some item.name }
  return found.filterMap id

/-- The candidates of a statement. -/
def candidatesOf (declared : Fields Declared) : Statement → Except LiteralError (List Candidate)
  | .exportDeclaration declaration => exportedBy declaration
  | .exportNames names => exportedNames declared names
  | _ => .ok []

/-- The tree inside the assertions around it. -/
def unwrapTree : Tree → Tree
  | .assertion _ operand _ => unwrapTree operand
  | t => t

/-- The name that a tree is. The word `undefined` stands for a value, not for a binding. -/
def plainName? : Tree → Option Text
  | .identifier name => if name = ("undefined" : Text) then none else some name
  | _ => none

/-- The meta expression of a default export. A name at the top of the module stands for its
value. -/
def metaOf (declared : Fields Declared) (value : Tree) : Except LiteralError Expression :=
  match (plainName? (unwrapTree value)).bind declared.get? with
  | some (.variable (some target)) => Expression.ofTree target
  | _ => Expression.ofTree value

/-- The last default export of a module. -/
def defaultExport? (m : Module) : Option (Option Tree) :=
  (m.filterMap fun
    | .exportDefault _ value => some value
    | _ => none).getLast?

/-- An assignment to a property of a plain name. -/
structure Assignment where
  binding : Text
  property : Text
  value : Tree

/-- The assignments to properties of plain names in a module, in document order. -/
def assignments (m : Module) : List Assignment :=
  m.expressions.filterMap fun
    | .assignment (.property target property _) value _ =>
      (plainName? target).map fun binding ↦ ⟨binding, property, value⟩
    | _ => none

/-- A candidate after an assignment to a property of its binding. -/
def assign (property : Text) (value : Expression) (c : Candidate) : Candidate :=
  if property = ("args" : Text) then { c with args := value }
  else if property = ("storyName" : Text) then
    match value.unwrap with
    | .string name => if name.isEmpty then c else { c with storyName := some name }
    | _ => c
  else c

/-- The candidates after an assignment. -/
def applyAssignment (stories : OrderedMap Candidate) (a : Assignment) :
    Except LiteralError (OrderedMap Candidate) :=
  if stories.values.any (·.binding == a.binding) then do
    let value ← Expression.ofTree a.value
    return stories.mapValues fun c ↦ if c.binding = a.binding then assign a.property value c else c
  else .ok stories

/-- What a module says about stories. -/
def ofModule (path : Option Path) (m : Module) : Except LiteralError StoryFile := do
  let declared := declarations m
  let candidates ← m.mapM (candidatesOf declared)
  let stories := OrderedMap.ofList (candidates.flatten.map fun c ↦ (c.exportName, c))
  let metaExpression ←
    match defaultExport? m with
    | some (some value) => metaOf declared value
    | _ => pure .absent
  let stories ← (assignments m).foldlM applyAssignment stories
  return { path, metaExpression, stories }

/-- The grammar of a file by the suffix of its path: markup is read in all files but those of
plain TypeScript. -/
def dialectOf (path : Option Path) : Dialect :=
  match path with
  | none => .markup
  | some path =>
    if ([".ts", ".mts", ".cts"] : List Text).contains (Text.lower path.suffix) then .plain
    else .markup

/-- Why a source text is no story file. -/
inductive ReadError where
  | unreadable (reason : Text)
  | fault (line : Nat)
  | literal (error : LiteralError)
  | encoding (fault : EncodeFault)

/-- The wording of the reason, for a file at a path. -/
def ReadError.message (path : Option Path) : ReadError → Text
  | .unreadable reason => located path reason
  | .fault line => located path (("syntax error near line " : Text) ++ Text.ofNat line)
  | .literal error => error.message
  | .encoding e => e.message
where
  located (path : Option Path) (reason : Text) : Text :=
    Text.concat ["[PARSE] Could not parse ", (path.map Path.text).getD "<source>", ": ", reason]

/-- The story file that a source text denotes. -/
def read (path : Option Path) (source : Text) : Except ReadError StoryFile :=
  match EncodeFault.find? source with
  | some fault => .error (.encoding fault)
  | none =>
    match Module.read (dialectOf path) ((Text.toChars? source).getD []) with
    | .error line => .error (.fault line)
    | .ok m =>
      match ofModule path m with
      | .error error => .error (.literal error)
      | .ok file => .ok file

end StoryFile

end StoryCatalog
