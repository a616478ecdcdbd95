import StoryCatalog.Json.Basic
import StoryCatalog.Literal.Expression

/-!
# Plain values of expressions

The JSON value that stands for an expression. Nothing is run: what cannot be known becomes `null`,
functions and markup become marks, and a name stands for itself. Arrays drop their `null` elements,
objects the properties without a static key.
-/

namespace StoryCatalog.Expression

/-- The mark for a function. -/
def functionMark : Text := "[Function]"

/-- The mark for markup. -/
def markupMark : Text := "[JSX Element]"

mutual

/-- The value that stands for an expression. -/
def plain : Expression → Json
  | .absent => .null
  | .string value => .string value
  | .number value => .number value
  | .boolean value => .bool value
  | .null => .null
  | .identifier name => .string name
  | .object properties => .object (Fields.ofList (plainProperties properties))
  | .array elements => .array (plainElements elements)
  | .function _ => .string functionMark
  | .markup _ => .string markupMark
  | .assertion _ operand => plain operand
  | .unresolved _ _ => .null

/-- The values of elements other than `null`. -/
def plainElements : List Expression → List Json
  | [] => []
  | element :: rest =>
    let value := plain element
    if value.isNull then plainElements rest else value :: plainElements rest

/-- The values of the properties with a static key. -/
def plainProperties : List (Option Text × Expression) → List (Text × Json)
  | [] => []
  | (none, _) :: rest => plainProperties rest
  | (some key, value) :: rest => (key, plain value) :: plainProperties rest

end

/-- The fields of an object literal, possibly in assertions; no fields for other expressions. -/
def plainFields (e : Expression) : Fields Json :=
  Fields.ofList (plainProperties e.unwrap.properties)

/-- The text of a string literal, possibly in assertions. -/
def plainString? (e : Expression) : Option Text :=
  match e.unwrap with
  | .string value => some value
  | _ => none

/-- The texts other than empty ones in an array literal, possibly in assertions. -/
def plainTexts (e : Expression) : List Text :=
  match e.unwrap with
  | .array elements =>
    elements.filterMap fun element ↦
      match plain element with
      | .string t => if t.isEmpty then none else some t
      | _ => none
  | _ => []

end StoryCatalog.Expression
