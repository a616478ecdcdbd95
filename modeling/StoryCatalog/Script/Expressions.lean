import StoryCatalog.Script.Markup

/-!
# Expressions of story files

Operands are literals, names, functions, classes and markup with members, calls and subscripts
behind them; operators join them. All binary operators make one kind of tree, so their relative
strength is left open; only what wraps a whole operand (`as`, `satisfies` and `!`) and what takes
everything to its right (assignments, arrows and conditions) has to be told apart.
-/

namespace StoryCatalog.Script.Expressions

open Reading

/-- Statements in braces. -/
def block (g : Grammar) : Reading (List Tree) := do
  symbol "\x7b"
  let statements ← repeated do
    if ← sees "\x7d" then return none else return some (← asStatement g.statement)
  symbol "\x7d"
  return statements.flatMap Statement.parts

/-- An expression, or a sequence of expressions between commas. -/
def sequence (g : Grammar) : Reading Tree := do
  let start ← start
  let first ← g.expression
  let rest ← repeated do
    if ← symbolIf "," then return some (← g.expression) else return none
  if rest.isEmpty then return first
  else return .other .sequence (← textFrom start) (first :: rest)

/-- The parameters, result type and body of a function. -/
def functionTail (g : Grammar) : Reading (List Tree) := do
  let signature ← Types.signature g
  return signature ++ (← block g)

/-! ## Literals -/

/-- The body of a template, up to its closing backtick: the expressions put into it. -/
def templateBody (g : Grammar) : Reading (List Tree) := do
  let parts ← repeated do
    match ← peek with
    | none => fail
    | some c =>
      if c = '\\' then
        discard escape
        return some []
      else if c = '$' then
        exactly "$"
        if (← peek) == some '{' then
          exactly "\x7b"
          let inner ← bracketed (sequence g)
          symbol "\x7d"
          return some [inner]
        else return some []
      else if c.toNat = 0x60 then return none
      else
        discard <| upTo fun source position ↦
          some (endOfRun source (fun d ↦ d != '\\' && d != '$' && d.toNat != 0x60) position)
        return some []
  return parts.flatten

/-- A template literal. -/
def template (g : Grammar) : Reading Tree := do
  symbol "`"
  let start ← position
  let substitutions ← templateBody g
  let body ← textFrom start
  exactly "`"
  return .template body substitutions

/-- An array literal. -/
def array (g : Grammar) : Reading Tree := do
  symbol "["
  bracketed do
    let elements ← commaItems "]" g.spreadable
    symbol "]"
    return .array elements

/-- A member of an object literal. -/
def objectMember (g : Grammar) : Reading Member := do
  if ← symbolIf "..." then return .spread (← g.expression)
  let modified ← repeated do
    if ← Grammar.modifierIf ("async" :: Grammar.modifiers) then return some () else return none
  let marked ← Grammar.accessorOrStar
  let key ← g.memberKey
  let plain := modified.isEmpty && !marked
  if plain && (← symbolIf ":") then return .pair key (← g.expression)
  else
    let optional ← symbolIf "?"
    if (← sees "(") || (← sees "<") then return .method key (← functionTail g)
    else
      match key with
      | .name text =>
        if plain && !optional && text.head? != some (CodePoint.ofChar '#') then
          return .shorthand text
        else fail
      | _ => fail

/-- An object literal. -/
def object (g : Grammar) : Reading Tree := do
  symbol "\x7b"
  bracketed do
    let members ← commaItems "\x7d" (objectMember g)
    symbol "\x7d"
    return .object members

/-! ## Functions and classes -/

/-- The word that makes a function asynchronous. Where a line end behind it closes the statement, it
is a name. -/
def asyncWord : Reading Unit := do
  word "async"
  if ← lineEndCloses then fail

/-- A function expression, with or without a name. -/
def function (g : Grammar) : Reading Tree := do
  if ← seesWord "async" then asyncWord
  word "function"
  let starred ← symbolIf "*"
  if !(← sees "(") && !(← sees "<") then discard anyWord
  return .function (if starred then .generator else .function) (← functionTail g)

/-- The arrow and the body of an arrow function. -/
def arrowBody (g : Grammar) : Reading (List Tree) := do
  symbol "=>"
  if ← sees "\x7b" then block g else return [← g.expression]

/-- The parameters of an arrow function: one name, or a list in parentheses. -/
def arrowParameters (g : Grammar) : Reading (List Tree) := do
  if (← sees "(") || (← sees "<") then
    let parameters ← Types.callSignature g
    if ← sees ":" then
      if (← read).admitsResultType then return parameters ++ (← Types.resultIf g) else fail
    return parameters
  else
    discard anyWord
    return []

/-- An arrow function. -/
def arrow (g : Grammar) : Reading Tree := do
  let parameters ←
    (do
      asyncWord
      if (← peekPunctuation) == "=>" then fail
      arrowParameters g) <|> arrowParameters g
  if (← peekPunctuation) != "=>" then fail
  return .function .arrow (parameters ++ (← arrowBody g))

/-- A member of a class: a static block, an index signature, a field or a method. -/
def classMember (g : Grammar) : Reading (List Tree) :=
  (do
    word "static"
    block g) <|>
  (do
    discard <| repeated do
      if ← Grammar.modifierIf Grammar.modifiers then return some () else return none
    let types ← Types.indexed g
    if !(← symbolIf ",") then endStatement false
    return types) <|>
  (do
    let decorated ← g.decorators
    discard <| repeated do
      if ← Grammar.modifierIf Grammar.modifiers then return some () else return none
    discard <| Grammar.modifierIf ["async"]
    discard Grammar.accessorOrStar
    let key ← g.memberKey
    if !(← symbolIf "?") then discard <| symbolIf "!"
    if (← sees "(") || (← sees "<") then
      let signature ← Types.signature g
      let body ←
        if ← sees "\x7b" then block g
        else
          if !(← symbolIf ",") then endStatement false
          pure []
      return decorated ++ Grammar.keyParts key ++ signature ++ body
    else
      let types ← g.typeIf
      let value ←
        if (← peekPunctuation) == "=" then
          symbol "="
          pure [← g.expression]
        else pure []
      if !(← symbolIf ",") then endStatement (!value.isEmpty)
      return decorated ++ Grammar.keyParts key ++ types ++ value)

/-- The members of a class, in braces. -/
def classBody (g : Grammar) : Reading (List Tree) := do
  symbol "\x7b"
  let members ← repeated do
    if ← sees "\x7d" then return none
    else if ← symbolIf ";" then return some []
    else
      withReader (fun scope ↦
        { scope with lineEnds := true, admitsIn := true, admitsResultType := true })
        (return some (← classMember g))
  symbol "\x7d"
  return members.flatten

/-- What a class extends and implements. -/
def heritage (g : Grammar) : Reading (List Tree) := do
  let extended ←
    if ← wordIf "extends" then do
      let base ← g.operand true
      let types ← if ← sees "<" then Types.arguments g else pure []
      pure (base :: types)
    else pure []
  let implemented ← if ← wordIf "implements" then commaList "\x7b" g.type else pure []
  return extended ++ implemented.flatten

/-- A class from its keyword on, with or without a name: the expressions inside. -/
def classTail (g : Grammar) : Reading (List Tree) := do
  word "class"
  if !(← sees "\x7b") && !(← seesWord "extends") && !(← seesWord "implements") then
    discard anyWord
  let parameters ← Types.parametersIf g
  let bases ← heritage g
  return parameters ++ bases ++ (← classBody g)

/-! ## Operands -/

/-- A parenthesized expression or sequence; a type may stand behind it. -/
def parenthesized (g : Grammar) : Reading Tree := do
  symbol "("
  bracketed do
    let inner ← sequence g
    let types ← g.typeIf
    symbol ")"
    return .assertion .parenthesized inner types

/-- A parenthesized expression, or an arrow function whose parameters look like one. -/
def parenthesizedOrArrow (g : Grammar) : Reading Tree :=
  (do
    let start ← position
    let tree ← parenthesized g
    let mark ← peekPunctuation
    if mark == "=>" then fail
    if mark == ":" && (← read).admitsResultType then
      let stop ← position
      moveTo start
      match ← option (arrow g) with
      | some result => return result
      | none =>
        moveTo stop
        return tree
    return tree) <|> arrow g

/-- The words that a name cannot stand for at the start of an operand. -/
def operatorWords : List String := ["typeof", "void", "delete"]

/-- The operand behind a word such as `this`, whose text is the word itself. -/
def namedConstruct (construct : Construct) : Reading Tree :=
  return .other construct (← anyWord) []

/-- An import call or the properties of the module. -/
def importOperand (g : Grammar) : Reading Tree := do
  let start ← start
  word "import"
  if ← symbolIf "." then
    word "meta"
    return .other .metaProperty (← textFrom start) []
  else
    let arguments ← g.callArguments
    return .other .call (← textFrom start) arguments

/-- An operand that nothing stands behind yet. -/
def atom (g : Grammar) : Reading Tree := do
  match ← next with
  | none => fail
  | some c =>
    if c = '(' then parenthesizedOrArrow g
    else if c = '\x7b' then object g
    else if c = '[' then array g
    else if c = '"' || c = '\'' then return .string (← quoted)
    else if c.isDigit || c = '.' then return .number (← number)
    else if c.toNat = 0x60 then template g
    else if c = '/' then return .other .regex (← regex) []
    else if c = '#' then
      let start ← start
      symbol "#"
      discard anyWord
      let text ← textFrom start
      if ← seesWord "in" then return .identifier text else fail
    else if c = '@' then
      let start ← start
      let decorated ← g.decorators
      let inner ← classTail g
      return .other .classBody (← textFrom start) (decorated ++ inner)
    else
      let name ← peekWord
      match name with
      | "function" => function g
      | "class" =>
        let start ← start
        let inner ← classTail g
        return .other .classBody (← textFrom start) inner
      | "this" => namedConstruct .this
      | "super" => namedConstruct .super
      | "null" => anyWord *> return .null
      | "true" => anyWord *> return .boolean true
      | "false" => anyWord *> return .boolean false
      | "import" => importOperand g
      | "async" =>
        function g <|> arrow g <|> do
          let name ← anyWord
          if (← peekPunctuation) == "=>" then fail
          return .identifier name
      | _ =>
        arrow g <|> do
          let name ← anyWord
          if (← peekPunctuation) == "=>" then fail
          return .identifier name

/-- Type arguments, and the call of what stands in front of them if one follows. -/
def genericCall (g : Grammar) (start : Nat) (callee : Tree) : Reading Tree := do
  let types ← Types.arguments g
  if ← sees "(" then
    let arguments ← g.callArguments
    return .other .call (← textFrom start) (callee :: types ++ arguments)
  else if ← sees "`" then
    let argument ← template g
    return .other .call (← textFrom start) (callee :: types ++ [argument])
  else
    match ← next with
    | none => return .other .instantiation (← textFrom start) (callee :: types)
    | some c =>
      if ")],;:\x7b\x7d=?.".toList.contains c || (← lineEndCloses) || (← seesWord "as") ||
          (← seesWord "satisfies") then
        return .other .instantiation (← textFrom start) (callee :: types)
      else fail

/-- One member, call, subscript or mark behind an operand; nothing if none follows. Without
`calls` plain arguments and type arguments are left standing: they belong to a construction. -/
def suffix (g : Grammar) (start : Nat) (calls bang : Bool) (tree : Tree) :
    Reading (Option Tree) := do
  if ← lineEndCloses then return none
  let mark ← peekPunctuation
  let member : Reading (Option Tree) := do
    let hash ← symbolIf "#"
    let name ← anyWord
    let name := if hash then CodePoint.ofChar '#' :: name else name
    return some (.property tree name (← textFrom start))
  let subscript : Reading (Option Tree) := do
    symbol "["
    let index ← bracketed (sequence g)
    symbol "]"
    return some (.other .subscript (← textFrom start) [tree, index])
  let call (types : List Tree) : Reading (Option Tree) := do
    let arguments ← g.callArguments
    return some (.other .call (← textFrom start) (tree :: types ++ arguments))
  if mark == "." then
    symbol "."
    member
  else if mark == "?." then
    if ← ahead (symbol "?." *> do
        match ← peek with
        | some c => if c.isDigit then pure () else fail
        | none => fail) then return none
    symbol "?."
    if ← sees "(" then call []
    else if ← sees "[" then subscript
    else if ← sees "<" then call (← Types.arguments g)
    else member
  else if mark == "[" then subscript
  else if mark == "(" then if calls then call [] else return none
  else if mark == "`" then
    let argument ← template g
    return some (.other .call (← textFrom start) [tree, argument])
  else if mark == "<" then
    if calls then option (genericCall g start tree) else return none
  else if mark == "!" && bang then
    symbol "!"
    return some (.assertion .nonNull tree [])
  else return none

/-- An operand with everything that stands behind it. `fuel` bounds the count of suffixes. -/
def suffixes (g : Grammar) (start : Nat) (calls bang : Bool) : Nat → Tree → Reading Tree
  | 0, _ => fail
  | fuel + 1, tree => do
    match ← suffix g start calls bang tree with
    | some next => suffixes g start calls bang fuel next
    | none => return tree

/-- An operand with its suffixes. -/
def suffixed (g : Grammar) (start : Nat) (calls bang : Bool) (tree : Tree) : Reading Tree := do
  suffixes g start calls bang ((← read).source.size + 1) tree

/-- A construction, or the target of the construction under way. `fuel` bounds the nesting. -/
def construction (g : Grammar) : Nat → Reading Tree
  | 0 => fail
  | fuel + 1 => do
    let start ← start
    word "new"
    if ← symbolIf "." then
      word "target"
      return .other .metaProperty (← textFrom start) []
    let inner ← Reading.start
    let callee ←
      if ← seesWord "new" then construction g fuel
      else suffixed g inner false false (← atom g)
    let types ← option do
      let types ← Types.arguments g
      if !(← sees "(") then
        match ← next with
        | some c => if isWordStart c || c.isDigit then fail
        | none => pure ()
      return types
    let arguments ←
      if (← sees "(") && !(← lineEndCloses) then g.callArguments else pure []
    return .other .new (← textFrom start) (callee :: types.getD [] ++ arguments)

/-- Whether something may be assigned to a tree. -/
def isTarget : Tree → Bool
  | .identifier _ => true
  | .property .. => true
  | .other .subscript _ _ => true
  | .assertion .nonNull _ _ => true
  | .assertion .parenthesized _ _ => true
  | _ => false

/-- The operators that assign the result of an operation. -/
def assignmentOperators : List String :=
  ["+=", "-=", "*=", "/=", "%=", "^=", "&=", "|=", ">>=", ">>>=", "<<=", "**=", "&&=", "||=", "??="]

/-- The assignment to an operand, or an update behind it, if one follows. -/
def assigned (g : Grammar) (start : Nat) (tree : Tree) : Reading Tree := do
  if ← lineEndCloses then return tree
  let mark ← peekPunctuation
  if mark == "=" && isTarget tree then
    symbol "="
    let value ← g.expression
    return .assignment tree value (← textFrom start)
  else if assignmentOperators.contains mark && isTarget tree then
    symbol mark
    let value ← g.expression
    return .other .augmentedAssignment (← textFrom start) [tree, value]
  else if mark == "++" || mark == "--" then
    symbol mark
    return .other .update (← textFrom start) [tree]
  else return tree

/-- An assignment to the places of a pattern. -/
def patternAssignment (g : Grammar) : Reading Tree := do
  let start ← start
  let (_, parts) ← g.pattern true
  let pattern := Tree.other .pattern (← textFrom start) parts
  if (← peekPunctuation) != "=" then fail
  symbol "="
  let value ← g.expression
  return .assignment pattern value (← textFrom start)

/-- Markup, a type assertion, or a function with type parameters. -/
def angled (g : Grammar) : Reading Tree :=
  arrow g <|> do
    let start ← start
    match (← read).dialect with
    | .markup => suffixed g start true true (← g.markup)
    | .plain =>
      let types ← Types.arguments g
      return .assertion .typePrefixed (← g.operand false) types

/-- A yield, whose value may be missing. -/
def yielded (g : Grammar) : Reading Tree := do
  let start ← start
  word "yield"
  let closed ← lineEndCloses
  if closed then return .other .yield (← textFrom start) []
  if ← symbolIf "*" then
    let value ← g.expression
    return .other .yield (← textFrom start) [value]
  let value ← option g.expression
  return .other .yield (← textFrom start) value.toList

/-- An awaited operand; types asserted behind it belong to the operand. -/
def awaited (g : Grammar) : Reading Tree := do
  let start ← start
  word "await"
  let first ← g.operand true
  let wrapped ← repeated do
    if ← lineEndCloses then return none
    else if (← seesWord "as") || (← seesWord "satisfies") then
      let form := if ← seesWord "as" then AssertionForm.asType else .satisfiesType
      discard anyWord
      return some (form, ← g.type)
    else return none
  let operand := wrapped.foldl (fun tree (form, types) ↦ Tree.assertion form tree types) first
  return .other .await (← textFrom start) [operand]

/-- An operand with operators in front of it. -/
def operand (g : Grammar) (bang : Bool) : Reading Tree := do
  let start ← start
  let mark ← peekPunctuation
  if mark == "<" then angled g
  else if ["+", "-", "~", "!"].contains mark then
    symbol mark
    let inner ← g.operand false
    return .unary mark inner (← textFrom start)
  else if mark == "++" || mark == "--" then
    symbol mark
    let inner ← g.operand false
    return .other .update (← textFrom start) [inner]
  else
    let name ← peekWord
    if operatorWords.contains name then
      discard anyWord
      let inner ← g.operand false
      return .unary name inner (← textFrom start)
    else if name == "await" then awaited g
    else if name == "yield" then yielded g
    else if name == "new" then
      let tree ← construction g ((← read).source.size + 1)
      assigned g start (← suffixed g start true bang tree)
    else
      let plain : Reading Tree := do
        let tree ← suffixed g start true bang (← atom g)
        if (← peekPunctuation) == "=" && !isTarget tree then
          match tree with
          | .array _ => fail
          | .object _ => fail
          | _ => pure ()
        assigned g start tree
      if mark == "\x7b" || mark == "[" then plain <|> patternAssignment g else plain

/-! ## Operators -/

/-- The operators between two operands that are no words. -/
def binaryOperators : List String :=
  ["&&", "||", "??", "|", "^", "&", "==", "===", "!=", "!==", "<", "<=", ">", ">=", "<<", ">>",
    ">>>", "+", "-", "*", "/", "%", "**"]

/-- One operator behind an operand, with its right side; nothing if none follows. -/
def operation (g : Grammar) (start : Nat) (left : Tree) : Reading (Option Tree) := do
  if ← lineEndCloses then return none
  let name ← peekWord
  let mark ← peekPunctuation
  if name == "as" then
    word "as"
    return some (.assertion .asType left (← g.type))
  else if name == "satisfies" then
    word "satisfies"
    return some (.assertion .satisfiesType left (← g.type))
  else if name == "instanceof" || (name == "in" && (← read).admitsIn) then
    discard anyWord
    let right ← g.operand false
    return some (.other .binary (← textFrom start) [left, right])
  else if mark == "!" then
    symbol "!"
    return some (← suffixed g start true true (.assertion .nonNull left []))
  else if binaryOperators.contains mark then
    symbol mark
    let right ← g.operand (mark == "**")
    return some (.other .binary (← textFrom start) [left, right])
  else return none

/-- An operand with the operators behind it. `fuel` bounds the count of operators. -/
def operations (g : Grammar) (start : Nat) : Nat → Tree → Reading Tree
  | 0, _ => fail
  | fuel + 1, left => do
    match ← operation g start left with
    | some next => operations g start fuel next
    | none => return left

/-- Whether a question mark begins a condition: `?:`, `?)` and `?,` mark optional parameters. -/
def seesCondition : Reading Bool := do
  if ← lineEndCloses then return false
  let mark ← peekPunctuation
  if mark == "?." then
    ahead do
      symbol "?."
      match ← peek with
      | some c => if c.isDigit then pure () else fail
      | none => fail
  else if mark == "?" then
    ahead do
      symbol "?"
      match ← peek with
      | some _ =>
        match ← lookAhead fun source position ↦ source[position]? with
        | some c => if ":),".toList.contains c then fail else pure ()
        | none => pure ()
      | none => pure ()
  else return false

/-- The two results of a condition. -/
def branches (g : Grammar) : Reading (Tree × Tree) := do
  symbol "?"
  let consequence ← withReader (fun scope ↦ { scope with admitsIn := true }) g.expression
  symbol ":"
  let alternative ← g.expression
  return (consequence, alternative)

/-- An expression that is no sequence. -/
def ofGrammar (g : Grammar) : Reading Tree := do
  let start ← start
  let first ← g.operand true
  let tree ← operations g start ((← read).source.size + 1) first
  if ← seesCondition then
    let (consequence, alternative) ←
      if (← read).admitsResultType then
        branches g <|>
          withReader (fun scope ↦ { scope with admitsResultType := false }) (branches g)
      else branches g
    return .other .ternary (← textFrom start) [tree, consequence, alternative]
  else return tree

/-! ## Patterns -/

/-- A default behind a place of a pattern. -/
def placeDefault (g : Grammar) : Reading (List Tree) := do
  if (← peekPunctuation) == "=" then
    symbol "="
    return [← g.expression]
  else return []

/-- A place of a pattern with its default. -/
def place (g : Grammar) (targets : Bool) : Reading (List Tree) := do
  discard <| symbolIf "..."
  let (_, parts) ← g.pattern targets
  return parts ++ (← placeDefault g)

/-- A member of an object pattern. -/
def memberPlace (g : Grammar) (targets : Bool) : Reading (List Tree) := do
  if ← sees "..." then place g targets
  else
    let key ← g.memberKey
    if ← symbolIf ":" then return Grammar.keyParts key ++ (← place g targets)
    else
      match key with
      | .name _ => placeDefault g
      | _ => fail

/-- A pattern: a name, the places of an array or an object, or a target of an assignment. -/
def pattern (g : Grammar) (targets : Bool) : Reading (Option Text × List Tree) := do
  match ← next with
  | none => fail
  | some c =>
    if c = '[' then
      symbol "["
      bracketed do
        let parts ← commaItems "]" (place g targets)
        symbol "]"
        return (none, parts.flatten)
    else if c = '\x7b' then
      symbol "\x7b"
      bracketed do
        let parts ← commaItems "\x7d" (memberPlace g targets)
        symbol "\x7d"
        return (none, parts.flatten)
    else if targets then
      let start ← start
      let tree ← suffixed g start true true (← atom g)
      match tree with
      | .identifier name => return (some name, [])
      | _ => if isTarget tree then return (none, [tree]) else fail
    else return (some (← anyWord), [])

end StoryCatalog.Script.Expressions
