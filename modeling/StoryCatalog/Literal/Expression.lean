import StoryCatalog.Literal.Numeral

/-!
# Expressions as data

An expression of a story file as far as it can be known without running it: literals, names,
objects and arrays, and marks for functions, markup and whatever stays unresolved. `ofTree` reads
it off a tree.
-/

namespace StoryCatalog

/-- What is known of an expression. Objects list their properties with their static keys, if they
have one. -/
inductive Expression where
  /-- No expression at all. -/
  | absent
  | string (value : Text)
  | number (value : Number)
  | boolean (value : Bool)
  | null
  | identifier (name : Text)
  | object (properties : List (Option Text × Expression))
  | array (elements : List Expression)
  | function (kind : Text)
  | markup (kind : Text)
  | assertion (kind : Text) (operand : Expression)
  | unresolved (kind : Text) (text : Text)
  deriving Inhabited

namespace Expression

/-- Whether there is no expression. -/
def isAbsent : Expression → Bool
  | .absent => true
  | _ => false

/-- The expression without the assertions around it. -/
def unwrap : Expression → Expression
  | .assertion _ operand => unwrap operand
  | e => e

/-- The properties of an object literal, none of other expressions. -/
def properties : Expression → List (Option Text × Expression)
  | .object properties => properties
  | _ => []

/-- Whether an expression is an object literal. -/
def isObject : Expression → Bool
  | .object _ => true
  | _ => false

/-- The value of the last property with a key; absent if there is none. -/
def get (properties : List (Option Text × Expression)) (key : Text) : Expression :=
  properties.foldl (fun found property ↦ if property.1 = some key then property.2 else found)
    .absent

/-- The number with a sign in front of it, if the operator is one. -/
def signed? (operator : Text) (n : Number) : Option Number :=
  if operator = ("-" : Text) then some n.neg
  else if operator = ("+" : Text) then some n
  else none

/-- What is known of a key. -/
def keyOf : Script.Key → Except LiteralError (Option Text)
  | .name text => .ok (some text)
  | .string pieces => (Escape.decodePieces pieces).map some
  | .number spelling =>
    match Numeral.read? spelling with
    | some n => (Numeral.key n).map some
    | none => .ok none
  | .computed _ => .ok none

mutual

/-- What is known of a tree. -/
def ofTree : Script.Tree → Except LiteralError Expression
  | .string pieces => (Escape.decodePieces pieces).map .string
  | .template body [] => (Escape.decodeTemplate body).map .string
  | .template body (_ :: _) =>
    .ok (.unresolved "template_string" (Text.concat ["`", body, "`"]))
  | .number spelling =>
    .ok (match Numeral.read? spelling with
      | some n => .number n
      | none => .unresolved "number" [])
  | .boolean value => .ok (.boolean value)
  | .null => .ok .null
  | .identifier name => .ok (.identifier name)
  | .object members => (ofMembers members).map .object
  | .array elements => (ofTrees elements).map .array
  | .function form _ => .ok (.function form.name)
  | .markup form _ => .ok (.markup form.name)
  | .assertion form operand _ => (ofTree operand).map (.assertion form.name)
  | .unary operator operand text =>
    let number :=
      match operand with
      | .number spelling => (Numeral.read? spelling).bind (signed? operator)
      | _ => none
    .ok (match number with
      | some n => .number n
      | none => .unresolved "unary_expression" text)
  | .property _ _ text => .ok (.unresolved "member_expression" text)
  | .assignment _ _ text => .ok (.unresolved "assignment_expression" text)
  | .other construct text _ => .ok (.unresolved construct.name text)

/-- What is known of trees. -/
def ofTrees : List Script.Tree → Except LiteralError (List Expression)
  | [] => .ok []
  | tree :: rest => do
    let first ← ofTree tree
    return first :: (← ofTrees rest)

/-- What is known of the members of an object literal. -/
def ofMembers : List Script.Member → Except LiteralError (List (Option Text × Expression))
  | [] => .ok []
  | .pair key value :: rest => do
    let key ← keyOf key
    let value ← ofTree value
    return (key, value) :: (← ofMembers rest)
  | .shorthand name :: rest => return (some name, .identifier name) :: (← ofMembers rest)
  | .method key _ :: rest => do
    let key ← keyOf key
    return (key, .function "method_definition") :: (← ofMembers rest)
  | .spread _ :: rest => return (none, .unresolved "spread_element" []) :: (← ofMembers rest)

end

end Expression

end StoryCatalog
