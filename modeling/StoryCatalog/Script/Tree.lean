import StoryCatalog.Text.CodePoint

/-!
# Trees of story files

What a TypeScript module says as far as story metadata goes. Expressions that can stand for plain
data have constructors of their own; every other construct keeps its name, its text and the
expressions inside it, in source order, so that nothing nested is lost. Types carry no data, and of
them too only the expressions inside are kept, such as computed keys and the defaults of parameters.
`Tree.preorder` lists all expressions of a tree, each before those inside it.
-/

namespace StoryCatalog.Script

/-- A part of the body of a quoted literal: plain characters, or one escape sequence. -/
inductive Piece where
  | fragment (text : Text)
  | escape (token : Text)
  deriving DecidableEq, Repr

/-- The forms of function expressions. -/
inductive FunctionForm where
  | arrow
  | function
  | generator
  deriving DecidableEq, Repr

/-- The grammar's name of a function form. -/
def FunctionForm.name : FunctionForm → String
  | .arrow => "arrow_function"
  | .function => "function_expression"
  | .generator => "generator_function"

/-- The forms of markup. -/
inductive MarkupForm where
  | element
  | selfClosing
  deriving DecidableEq, Repr

/-- The grammar's name of a markup form. -/
def MarkupForm.name : MarkupForm → String
  | .element => "jsx_element"
  | .selfClosing => "jsx_self_closing_element"

/-- The wrappers that leave a value as it is. -/
inductive AssertionForm where
  | asType
  | satisfiesType
  | typePrefixed
  | nonNull
  | parenthesized
  deriving DecidableEq, Repr

/-- The grammar's name of a wrapper. -/
def AssertionForm.name : AssertionForm → String
  | .asType => "as_expression"
  | .satisfiesType => "satisfies_expression"
  | .typePrefixed => "type_assertion"
  | .nonNull => "non_null_expression"
  | .parenthesized => "parenthesized_expression"

/-- The constructs that stand for no plain data. -/
inductive Construct where
  | call
  | new
  | subscript
  | binary
  | update
  | ternary
  | augmentedAssignment
  | sequence
  | await
  | yield
  | spread
  | regex
  | classBody
  | this
  | super
  | metaProperty
  | instantiation
  | pattern
  deriving DecidableEq, Repr

/-- The grammar's name of a construct. -/
def Construct.name : Construct → String
  | .call => "call_expression"
  | .new => "new_expression"
  | .subscript => "subscript_expression"
  | .binary => "binary_expression"
  | .update => "update_expression"
  | .ternary => "ternary_expression"
  | .augmentedAssignment => "augmented_assignment_expression"
  | .sequence => "sequence_expression"
  | .await => "await_expression"
  | .yield => "yield_expression"
  | .spread => "spread_element"
  | .regex => "regex"
  | .classBody => "class"
  | .this => "this"
  | .super => "super"
  | .metaProperty => "meta_property"
  | .instantiation => "instantiation_expression"
  | .pattern => "assignment_pattern"

mutual

/-- An expression of a story file. -/
inductive Tree where
  | string (pieces : List Piece)
  | template (body : Text) (substitutions : List Tree)
  | number (spelling : Text)
  | boolean (value : Bool)
  | null
  | identifier (name : Text)
  | object (members : List Member)
  | array (elements : List Tree)
  | function (form : FunctionForm) (parts : List Tree)
  | markup (form : MarkupForm) (parts : List Tree)
  /-- A wrapped value, with the expressions inside the type that it is said to have. -/
  | assertion (form : AssertionForm) (operand : Tree) (types : List Tree)
  | unary (operator : Text) (operand : Tree) (text : Text)
  | property (object : Tree) (name : Text) (text : Text)
  | assignment (target value : Tree) (text : Text)
  | other (construct : Construct) (text : Text) (parts : List Tree)

/-- A member of an object literal. -/
inductive Member where
  | pair (key : Key) (value : Tree)
  | shorthand (name : Text)
  | method (key : Key) (parts : List Tree)
  | spread (operand : Tree)

/-- The key of an object member. -/
inductive Key where
  | name (text : Text)
  | string (pieces : List Piece)
  | number (spelling : Text)
  | computed (expression : Tree)

end

instance : Inhabited Tree := ⟨.null⟩

namespace Tree

mutual

/-- All expressions of a tree, each before those inside it, in source order. -/
def preorder : Tree → List Tree
  | t@(.template _ substitutions) => t :: preorderAll substitutions
  | t@(.object members) => t :: preorderMembers members
  | t@(.array elements) => t :: preorderAll elements
  | t@(.function _ parts) => t :: preorderAll parts
  | t@(.markup _ parts) => t :: preorderAll parts
  | t@(.assertion form operand types) =>
    t :: if form = .typePrefixed then preorderAll types ++ preorder operand
      else preorder operand ++ preorderAll types
  | t@(.unary _ operand _) => t :: preorder operand
  | t@(.property target _ _) => t :: preorder target
  | t@(.assignment target value _) => t :: (preorder target ++ preorder value)
  | t@(.other _ _ parts) => t :: preorderAll parts
  | t => [t]

/-- The expressions of several trees, one tree after another. -/
def preorderAll : List Tree → List Tree
  | [] => []
  | t :: rest => preorder t ++ preorderAll rest

/-- The expressions of the members of an object. -/
def preorderMembers : List Member → List Tree
  | [] => []
  | member :: rest => preorderMember member ++ preorderMembers rest

/-- The expressions of a member. -/
def preorderMember : Member → List Tree
  | .pair key value => preorderKey key ++ preorder value
  | .shorthand _ => []
  | .method key parts => preorderKey key ++ preorderAll parts
  | .spread operand => preorder operand

/-- The expressions of a key. -/
def preorderKey : Key → List Tree
  | .computed expression => preorder expression
  | _ => []

end

end Tree

/-- A binding of a variable declaration. A destructuring pattern has no name. -/
structure Declarator where
  line : Nat
  name : Option Text
  value : Option Tree
  parts : List Tree

/-- A declaration at the top of a module. -/
inductive Declaration where
  | binding (declarators : List Declarator)
  | function (line : Nat) (name : Text) (parts : List Tree)
  | other (parts : List Tree)

/-- One name of an export clause, and the name that it is exported under, if that is another. -/
structure ExportName where
  line : Nat
  name : Text
  exportedAs : Option Text

/-- A statement at the top of a module. -/
inductive Statement where
  | declaration (declared : Declaration)
  | exportDeclaration (declared : Declaration)
  | exportDefault (declared : Option Declaration) (value : Option Tree)
  | exportNames (names : List ExportName)
  | other (parts : List Tree)

/-- A module is its list of statements. -/
abbrev Module := List Statement

namespace Declaration

/-- The expressions at the top of a declaration. -/
def parts : Declaration → List Tree
  | .binding declarators =>
    declarators.flatMap fun declarator ↦ declarator.parts ++ declarator.value.toList
  | .function _ _ parts => parts
  | .other parts => parts

end Declaration

namespace Statement

/-- The expressions at the top of a statement. -/
def parts : Statement → List Tree
  | .declaration declared => declared.parts
  | .exportDeclaration declared => declared.parts
  | .exportDefault declared value =>
    (declared.map Declaration.parts).getD [] ++ value.toList
  | .exportNames _ => []
  | .other parts => parts

end Statement

/-- All expressions of a module, in document order. -/
def Module.expressions (statements : Module) : List Tree :=
  statements.flatMap fun statement ↦ Tree.preorderAll statement.parts

end StoryCatalog.Script
