import StoryCatalog.Script.Token

/-!
# Readers inside one another

The grammar of story files is recursive: expressions hold functions, functions hold statements,
and statements hold expressions. `Grammar` names the readers that others use for nested parts;
every reader takes it as an argument, and the recursion is closed where modules are read. The
parts that types, expressions and classes share stand here.
-/

namespace StoryCatalog.Script

/-- The readers of the nested parts of the grammar. -/
structure Grammar where
  /-- An expression that is no sequence. -/
  expression : Reading Tree
  /-- An operand; the argument tells whether `!` may stand behind it. -/
  operand : Bool → Reading Tree
  statement : Reading Statement
  /-- A type: the expressions inside it. -/
  type : Reading (List Tree)
  /-- A pattern: its name, if it is one, and the expressions inside. The argument tells whether
  members and subscripts may be assigned to. -/
  pattern : Bool → Reading (Option Text × List Tree)
  markup : Reading Tree

namespace Grammar

open Reading

/-- An expression, or a spread of one. -/
def spreadable (g : Grammar) : Reading Tree := do
  let start ← start
  if ← symbolIf "..." then
    let inner ← g.expression
    return .other .spread (← textFrom start) [inner]
  else g.expression

/-- The arguments of a call, in parentheses. -/
def callArguments (g : Grammar) : Reading (List Tree) := do
  symbol "("
  bracketed do
    let inner ← commaItems ")" g.spreadable
    symbol ")"
    return inner

/-- The words that may stand in front of a parameter or a member. -/
def modifiers : List String :=
  ["public", "private", "protected", "override", "readonly", "static", "abstract", "declare",
    "accessor"]

/-- A modifier, where something that it modifies follows it. -/
def modifierIf (words : List String) : Reading Bool :=
  (do
    if !(← seesWordOf words) then fail
    discard anyWord
    match ← next with
    | none => fail
    | some c =>
      if "[\"'#\x7b*".toList.contains c || isWordStart c || c.isDigit then return true
      else fail) <|> pure false

/-- The mark of a getter, a setter or a generator, if there is one. -/
def accessorOrStar : Reading Bool := do
  if ← modifierIf ["get", "set"] then return true else symbolIf "*"

/-- Modifiers in front of a parameter. -/
def parameterModifiers : Reading Unit := do
  discard <| repeated do
    if ← modifierIf ["public", "private", "protected", "override", "readonly"] then
      return some ()
    else return none

/-- The expressions of a decorator: of the arguments behind its name, or in its parentheses. -/
def decorator (g : Grammar) : Reading (List Tree) := do
  symbol "@"
  if ← sees "(" then return ← g.callArguments
  discard anyWord
  discard <| repeated do
    if ← symbolIf "." then
      discard anyWord
      return some ()
    else return none
  if ← sees "(" then g.callArguments else return []

/-- Decorators, if there are any. -/
def decorators (g : Grammar) : Reading (List Tree) := do
  let all ← repeated do
    if ← sees "@" then return some (← decorator g) else return none
  return all.flatten

/-- The key of a member: a word, a private name, a literal, or an expression in brackets. -/
def memberKey (g : Grammar) : Reading Key := do
  match ← next with
  | none => fail
  | some c =>
    if c = '[' then
      symbol "["
      bracketed do
        let expression ← g.expression
        symbol "]"
        return .computed expression
    else if c = '"' || c = '\'' then return .string (← quoted)
    else if c.isDigit || c = '.' then return .number (← number)
    else if c = '#' then
      symbol "#"
      return .name (CodePoint.ofChar '#' :: (← anyWord))
    else return .name (← anyWord)

/-- The expression of a computed key. -/
def keyParts : Key → List Tree
  | .computed expression => [expression]
  | _ => []

/-- The expressions of the type behind a colon, if there is one. -/
def typeIf (g : Grammar) : Reading (List Tree) := do
  if ← symbolIf ":" then g.type else return []

end Grammar

end StoryCatalog.Script
