import StoryCatalog.Script.Grammar

/-!
# Types of story files

Types say nothing about story data. They are read over, and leave the expressions inside them: the
computed keys of members, the arguments of imports, and what the parameters of functions have for
decorators and defaults. The parameters of functions are read here too, since types of functions
have them.
-/

namespace StoryCatalog.Script

namespace Types

open Reading

/-- The space of a type parameter list, up to its closing bracket. -/
def closeAngle : Reading Unit := symbol ">"

/-- An opening angle bracket that is no part of a longer operator. -/
def openAngle : Reading Unit := do
  symbol "<"
  if (← peek) == some '=' then fail

/-- Arguments of a generic type, in angle brackets. -/
def arguments (g : Grammar) : Reading (List Tree) := do
  openAngle
  bracketed do
    let inner ← commaList ">" do
      if ← seesWord "const" then
        (do
          word "const"
          if !(← sees ">") && !(← sees ",") then fail
          return []) <|> g.type
      else g.type
    closeAngle
    return inner.flatten

/-- One type parameter, with its constraint and its default. -/
def parameter (g : Grammar) : Reading (List Tree) := do
  (do
    word "const"
    if ← sees "," then fail
    if ← sees ">" then fail
    if ← seesWord "extends" then fail) <|> pure ()
  (do
    if ← seesWordOf ["in", "out"] then
      discard anyWord
      if ← sees "," then fail
      if ← sees ">" then fail) <|> pure ()
  discard anyWord
  let constraint ← if ← wordIf "extends" then g.type else pure []
  let default ← if ← symbolIf "=" then g.type else pure []
  return constraint ++ default

/-- Type parameters in angle brackets. -/
def parameters (g : Grammar) : Reading (List Tree) := do
  openAngle
  bracketed do
    let inner ← commaList ">" (parameter g)
    closeAngle
    return inner.flatten

/-- Type parameters, if there are any. -/
def parametersIf (g : Grammar) : Reading (List Tree) := do
  if ← sees "<" then parameters g else return []

/-- What a function gives back: a type, a predicate about a parameter, or an assertion. -/
def result (g : Grammar) : Reading (List Tree) :=
  (do
    word "asserts"
    if ← seesWord "is" then fail
    discard anyWord
    if ← wordIf "is" then g.type else return []) <|>
  (do
    discard anyWord
    word "is"
    g.type) <|>
  g.type

/-- The result type behind a colon, if there is one. -/
def resultIf (g : Grammar) : Reading (List Tree) := do
  if ← symbolIf ":" then result g else return []

/-- A parameter of a function, with its decorators, its type and its default. -/
def formal (g : Grammar) : Reading (List Tree) := do
  let decorated ← g.decorators
  Grammar.parameterModifiers
  let rest ← symbolIf "..."
  let (_, parts) ← g.pattern false
  if !rest then discard <| symbolIf "?"
  let types ← g.typeIf
  let value ←
    if (← peekPunctuation) == "=" then
      symbol "="
      pure [← g.expression]
    else pure []
  return decorated ++ parts ++ types ++ value

/-- The parameters of a function, in parentheses. -/
def formals (g : Grammar) : Reading (List Tree) := do
  symbol "("
  bracketed do
    let parts ← if ← sees ")" then pure [] else commaList ")" (formal g)
    symbol ")"
    return parts.flatten

/-- The signature of a call, without its result type. -/
def callSignature (g : Grammar) : Reading (List Tree) := do
  let types ← parametersIf g
  return types ++ (← formals g)

/-- The signature of a call, with its result type. -/
def signature (g : Grammar) : Reading (List Tree) := do
  let parameters ← callSignature g
  return parameters ++ (← resultIf g)

/-- A function type. -/
def functionType (g : Grammar) : Reading (List Tree) := do
  let parameters ← callSignature g
  symbol "=>"
  return parameters ++ (← result g)

/-- The words in front of a mapped member, such as `-readonly`. -/
def mappedSign (mark : Reading Unit) : Reading Unit :=
  (do
    if !(← symbolIf "-") then discard <| symbolIf "+"
    mark) <|> pure ()

/-- An index signature or the clause of a mapped type. -/
def indexed (g : Grammar) : Reading (List Tree) := do
  mappedSign (word "readonly")
  symbol "["
  let keys ← bracketed do
    discard anyWord
    let keys ←
      if ← wordIf "in" then
        let source ← g.type
        let renamed ← if ← wordIf "as" then g.type else pure []
        pure (source ++ renamed)
      else
        symbol ":"
        g.type
    symbol "]"
    return keys
  mappedSign (symbol "?")
  return keys ++ (← g.typeIf)

/-- A named member of an object type: a property, a method or an accessor. -/
def named (g : Grammar) : Reading (List Tree) := do
  discard <| repeated do
    if ← Grammar.modifierIf Grammar.modifiers then return some () else return none
  discard <| Grammar.modifierIf ["get", "set", "async"]
  discard <| symbolIf "*"
  let key ← g.memberKey
  discard <| symbolIf "?"
  let types ← if (← sees "<") || (← sees "(") then signature g else g.typeIf
  return Grammar.keyParts key ++ types

/-- A member of an object type. -/
def member (g : Grammar) : Reading (List Tree) :=
  indexed g <|>
  (do
    discard <| wordIf "abstract"
    word "new"
    signature g) <|>
  (do
    if !(← sees "(") && !(← sees "<") then fail
    signature g) <|>
  named g

/-- An object type; its members end like statements, or with a comma. -/
def objectType (g : Grammar) : Reading (List Tree) := do
  symbol "\x7b"
  let barred ← symbolIf "|"
  let closing := if barred then "|\x7d" else "\x7d"
  let members ← withReader (fun scope ↦ { scope with lineEnds := true, admitsIn := true }) do
    if (← symbolIf ",") || (← symbolIf ";") then
      if ← sees closing then fail
    repeated do
      if ← sees closing then return none
      let types ← member g
      if ← symbolIf "," then return some types
      if ← sees closing then return some types
      endStatement false
      return some types
  symbol closing
  return members.flatten

/-- An element of a tuple type, which may have a name, be optional or stand for the rest. -/
def tupleElement (g : Grammar) : Reading (List Tree) :=
  (do
    discard <| symbolIf "..."
    discard anyWord
    discard <| symbolIf "?"
    symbol ":"
    g.type) <|>
  (do
    discard <| symbolIf "..."
    let types ← g.type
    discard <| symbolIf "?"
    return types)

/-- The body of a template in a type, from the opening backtick on. -/
def templateType (g : Grammar) : Reading (List Tree) := do
  symbol "`"
  let parts ← repeated do
    match ← peek with
    | none => fail
    | some c =>
      if c = '\\' then
        discard escape
        return some []
      else if c = '$' then
        exactly "$"
        if (← peek) == some '{' then
          exactly "\x7b"
          bracketed do
            let types ← g.type
            symbol "\x7d"
            return some types
        else return some []
      else if c.toNat = 0x60 then return none
      else
        discard <| upTo fun source position ↦ some (position + (if source.isEmpty then 0 else 1))
        return some []
  exactly "`"
  return parts.flatten

/-- What stands in the parentheses of an import. -/
def imported (g : Grammar) : Reading (List Tree) := do
  symbol "("
  bracketed do
    let inner ← commaList ")" g.expression
    symbol ")"
    return inner

/-- What `typeof` asks the type of: a name with members, subscripts and type arguments, or an
import. -/
def query (g : Grammar) : Reading (List Tree) := do
  let inner ←
    if ← wordIf "import" then imported g
    else
      discard anyWord
      pure []
  discard <| repeated do
    if ← lineEndCloses false then return none
    else if ← symbolIf "?." then
      discard <| symbolIf "#"
      discard anyWord
      return some ()
    else if ← symbolIf "." then
      discard <| symbolIf "#"
      discard anyWord
      return some ()
    else return none
  let types ← option do
    if ← lineEndCloses false then fail
    arguments g
  return inner ++ types.getD []

/-- The words that something else has to follow in a type. -/
def operatorWords : List String :=
  ["keyof", "typeof", "readonly", "unique", "infer", "new", "abstract"]

/-- A named type, with qualifiers and type arguments. -/
def reference (g : Grammar) : Reading (List Tree) := do
  if ← seesWordOf operatorWords then fail
  let inner ←
    if ← wordIf "import" then imported g
    else
      discard anyWord
      pure []
  discard <| repeated do
    if ← symbolIf "." then
      discard anyWord
      return some ()
    else return none
  let types ← if ← sees "<" then option (arguments g) else pure none
  return inner ++ types.getD []

/-- A type without operators in front of it or brackets behind it. -/
def primary (g : Grammar) : Reading (List Tree) := do
  match ← next with
  | none => fail
  | some c =>
    if c = '(' then
      functionType g <|> do
        symbol "("
        bracketed do
          let types ← g.type
          symbol ")"
          return types
    else if c = '<' then functionType g
    else if c = '{' then objectType g
    else if c = '[' then
      symbol "["
      bracketed do
        let elements ← if ← sees "]" then pure [] else commaList "]" (tupleElement g)
        symbol "]"
        return elements.flatten
    else if c = '"' || c = '\'' then
      discard quoted
      return []
    else if c.isDigit || c = '.' then
      discard number
      return []
    else if c = '-' || c = '+' then
      symbol c.toString
      discard number
      return []
    else if c = '*' then
      symbol "*"
      return []
    else if c = '?' then
      symbol "?"
      g.type
    else if c.toNat = 0x60 then templateType g
    else
      (do
        discard <| wordIf "abstract"
        word "new"
        functionType g) <|>
      (do
        word "typeof"
        query g) <|>
      (do
        word "unique"
        word "symbol"
        return []) <|>
      reference g

/-- A primary type with array and look-up brackets behind it. -/
def postfixed (g : Grammar) : Reading (List Tree) := do
  let first ← primary g
  let more ← repeated do
    if ← lineEndCloses false then return none
    else if ← symbolIf "[" then
      bracketed do
        let types ← if ← sees "]" then pure [] else g.type
        symbol "]"
        return some types
    else return none
  return first ++ more.flatten

/-- A type with the operators in front of it. -/
def prefixed (g : Grammar) : Reading (List Tree) := do
  discard <| repeated
    ((do
      if !(← seesWordOf ["keyof", "readonly"]) then fail
      discard anyWord
      match ← next with
      | none => fail
      | some c =>
        if isWordStart c || "([\x7b\"'`-".toList.contains c || c.isDigit then return some ()
        else fail) <|> pure none)
  (do
    word "infer"
    discard anyWord
    let types ← option do
      word "extends"
      g.type
    return types.getD []) <|>
  postfixed g

/-- Types joined by `&` and `|`, with the condition on them if there is one. -/
def ofGrammar (g : Grammar) : Reading (List Tree) := do
  if !(← symbolIf "|") then discard <| symbolIf "&"
  let first ← prefixed g
  let more ← repeated do
    let operator ← peekPunctuation
    if operator == "|" || operator == "&" then
      symbol operator
      return some (← prefixed g)
    else return none
  let conditional ← option do
    if ← lineEndCloses false then fail
    word "extends"
    let bound ← withReader (fun scope ↦ { scope with lineEnds := false }) g.type
    symbol "?"
    return bound
  match conditional with
  | none => return first ++ more.flatten
  | some bound =>
    let consequence ← withReader (fun scope ↦ { scope with lineEnds := false }) g.type
    symbol ":"
    return first ++ more.flatten ++ bound ++ consequence ++ (← g.type)

end Types

end StoryCatalog.Script
