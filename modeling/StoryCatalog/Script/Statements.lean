import StoryCatalog.Script.Expressions

/-!
# Statements of story files

Declarations and exports keep their names, since stories are exported names; of every other
statement only the expressions inside are kept.
-/

namespace StoryCatalog.Script.Statements

open Reading Expressions

/-- The line of the next token. -/
def line : Reading Nat := lookAhead lineOf

/-- A condition in parentheses. -/
def condition (g : Grammar) : Reading Tree := do
  symbol "("
  bracketed do
    let inner ← sequence g
    symbol ")"
    return inner

/-- The expressions of a nested statement. -/
def nested (g : Grammar) : Reading (List Tree) := do
  return (← asStatement g.statement).parts

/-! ## Declarations -/

/-- One binding of a variable declaration. -/
def declarator (g : Grammar) : Reading Declarator := do
  let line ← line
  let (name, parts) ← g.pattern false
  discard <| symbolIf "!"
  let types ← g.typeIf
  let value ←
    if (← peekPunctuation) == "=" then
      symbol "="
      pure (some (← g.expression))
    else pure none
  return ⟨line, name, value, parts ++ types⟩

/-- One or more bindings between commas. -/
def declarators (g : Grammar) : Reading (List Declarator) := do
  let first ← declarator g
  let rest ← repeated do
    if ← symbolIf "," then return some (← declarator g) else return none
  return first :: rest

/-- A variable declaration. -/
def variableDeclaration (g : Grammar) : Reading Declaration := do
  if !(← seesWordOf ["const", "let", "var"]) then fail
  discard anyWord
  let bindings ← declarators g
  endStatement ((bindings.getLast?.bind (·.value)).isSome)
  return .binding bindings

/-- A function declaration, or the signature of one. -/
def functionDeclaration (g : Grammar) : Reading Declaration := do
  let line ← line
  discard <| wordIf "async"
  word "function"
  discard <| symbolIf "*"
  let name ← anyWord
  let signature ← Types.signature g
  if ← sees "\x7b" then return .function line name (signature ++ (← block g))
  else
    endStatement false
    return .other signature

/-- A class declaration, with its decorators. -/
def classDeclaration (g : Grammar) : Reading Declaration := do
  let decorated ← g.decorators
  if ← wordIf "abstract" then
    if !(← ahead (word "class" *> anyWord)) then fail
  let inner ← classTail g
  discard <| option do
    if ← lineEndCloses then fail
    symbol ";"
  return .other (decorated ++ inner)

/-- An interface. -/
def interface (g : Grammar) : Reading Declaration := do
  word "interface"
  discard anyWord
  let parameters ← Types.parametersIf g
  let extended ← if ← wordIf "extends" then commaList "\x7b" g.type else pure []
  return .other (parameters ++ extended.flatten ++ (← Types.objectType g))

/-- A name for a type. -/
def typeAlias (g : Grammar) : Reading Declaration := do
  word "type"
  discard anyWord
  let parameters ← Types.parametersIf g
  symbol "="
  let types ← g.type
  endStatement false
  return .other (parameters ++ types)

/-- An enumeration. -/
def enumeration (g : Grammar) : Reading Declaration := do
  discard <| wordIf "const"
  word "enum"
  discard anyWord
  symbol "\x7b"
  let inner ← bracketed do
    if ← sees "\x7d" then pure []
    else
      commaList "\x7d" do
        let key ← g.memberKey
        return Grammar.keyParts key ++ (← placeDefault g)
  symbol "\x7d"
  return .other inner.flatten

/-- A namespace or an ambient module; only the latter may lack its body. -/
def namespaceDeclaration (g : Grammar) : Reading Declaration := do
  if !(← seesWordOf ["namespace", "module"]) then fail
  discard anyWord
  match ← next with
  | none => fail
  | some c =>
    if c = '"' || c = '\'' then discard quoted
    else
      if ← lineEndCloses then fail
      discard anyWord
      discard <| repeated do
        if ← symbolIf "." then
          discard anyWord
          return some ()
        else return none
  if ← sees "\x7b" then return .other (← block g)
  else
    endStatement false
    return .other []

/-- The name of another module's part, or a required module, under a new name. -/
def importAlias : Reading Unit := do
  discard anyWord
  symbol "="
  if ← ahead (word "require" *> symbol "(") then
    word "require"
    symbol "("
    discard quoted
    symbol ")"
  else
    discard anyWord
    discard <| repeated do
      if ← symbolIf "." then
        discard anyWord
        return some ()
      else return none
  endStatement

/-- A declaration other than an ambient one. -/
def plainDeclaration (g : Grammar) : Reading Declaration := do
  let name ← peekWord
  if name == "const" then enumeration g <|> variableDeclaration g
  else if name == "let" || name == "var" then variableDeclaration g
  else if name == "function" || name == "async" then functionDeclaration g
  else if name == "class" || name == "abstract" || (← sees "@") then classDeclaration g
  else if name == "interface" then interface g
  else if name == "type" then typeAlias g
  else if name == "enum" then enumeration g
  else if name == "namespace" || name == "module" then namespaceDeclaration g
  else fail

/-- A declaration. An ambient one declares nothing that a story could be. -/
def declaration (g : Grammar) : Reading Declaration := do
  if ← seesWord "declare" then
    discard anyWord
    if ← lineEndCloses then fail
    (do
      word "global"
      return .other (← block g)) <|>
    (do
      word "module"
      symbol "."
      discard anyWord
      symbol ":"
      let types ← g.type
      endStatement false
      return .other types) <|>
    (do return .other (← plainDeclaration g).parts)
  else plainDeclaration g

/-! ## Imports and exports -/

/-- The attributes of a module that is imported or exported from, if there are any. -/
def attributes (g : Grammar) : Reading (List Tree) := do
  if (← seesWordOf ["with", "assert"]) && !(← lineEndCloses) then
    discard anyWord
    return [← object g]
  else return []

/-- The module that an import or an export names, with its attributes, up to the end of the
statement. -/
def source (g : Grammar) : Reading (List Tree) := do
  discard quoted
  let parts ← attributes g
  endStatement
  return parts

/-- Whether a word of an import or export clause stands for `type` in front of a name. -/
def typeWordIf : Reading Unit :=
  (do
    if !(← seesWordOf ["type", "typeof"]) then fail
    discard anyWord
    match ← next with
    | some c => if isWordStart c || c = '"' || c = '\'' then pure () else fail
    | none => fail
    if ← seesWord "as" then
      if !(← ahead (anyWord *> anyWord *> anyWord)) then fail) <|> pure ()

/-- The text of a name in a clause, in quotes if it is a string. -/
def clauseName : Reading Text := do
  match ← next with
  | some c =>
    if c = '"' || c = '\'' then
      let start ← start
      discard quoted
      textFrom start
    else anyWord
  | none => fail

/-- One name of a clause in braces. -/
def clauseItem : Reading ExportName := do
  let line ← line
  typeWordIf
  let name ← clauseName
  let exported ← if ← wordIf "as" then pure (some (← clauseName)) else pure none
  return ⟨line, name, exported⟩

/-- The items of a clause in braces. -/
def clause {α : Type} (item : Reading α) : Reading (List α) := do
  symbol "\x7b"
  bracketed do
    let items ← if (← sees "\x7d") || (← symbolIf ",") then pure [] else commaList "\x7d" item
    symbol "\x7d"
    return items

/-- One name that an import brings in; a name in quotes needs another one. -/
def importItem : Reading Unit := do
  typeWordIf
  if (← sees "\"") || (← sees "'") then
    discard quoted
    word "as"
    discard anyWord
  else
    discard anyWord
    if ← wordIf "as" then discard anyWord

/-- What an import brings in, in front of `from`. -/
def importClause : Reading Unit := do
  let braces : Reading Unit := do
    if ← symbolIf "*" then
      word "as"
      discard anyWord
    else discard <| clause importItem
  if (← sees "\x7b") || (← sees "*") then braces
  else
    discard anyWord
    if ← symbolIf "," then braces

/-- An import. -/
def importStatement (g : Grammar) : Reading Statement := do
  word "import"
  let clause : Reading (List Tree) := do
    importClause
    word "from"
    source g
  let parts ←
    source g <|> clause <|>
      (do
        if !(← seesWordOf ["type", "typeof"]) then fail
        discard anyWord
        clause <|> importAlias *> pure []) <|>
      importAlias *> pure []
  return .other parts

/-- The names exported by a clause, which may come from another module. -/
def exportClause (g : Grammar) : Reading Statement := do
  let names ← clause clauseItem
  if ← wordIf "from" then return .other (← source g)
  else
    endStatement
    return .exportNames names

/-- The default export, behind its keyword. -/
def exportDefault (g : Grammar) : Reading Statement :=
  (do
    if (← seesWordOf ["abstract", "interface", "enum", "type", "namespace", "module", "declare",
        "const", "let", "var"]) then
      return .exportDefault (some (← declaration g)) none
    else if ← seesWord "class" then
      if ← ahead (word "class" *> do
          if (← sees "\x7b") || (← seesWord "extends") || (← seesWord "implements") ||
              (← sees "<") then fail) then
        return .exportDefault (some (← classDeclaration g)) none
      else fail
    else return .exportDefault (some (← functionDeclaration g)) none) <|>
  (do
    let value ← g.expression
    endStatement
    return .exportDefault none (some value))

/-- A declaration with decorators in front of it, which only classes have. -/
def decorate (decorated : List Tree) : Declaration → Declaration
  | .other parts => .other (decorated ++ parts)
  | declared => declared

/-- A default export with decorators in front of it; they may stand before a class without a name,
which is a value. -/
def decorateDefault (decorated : List Tree) : Statement → Statement
  | .exportDefault (some declared) value =>
    .exportDefault (some (decorate decorated declared)) value
  | .exportDefault none value =>
    .exportDefault (if decorated.isEmpty then none else some (.other decorated)) value
  | statement => statement

/-- An export. -/
def exportStatement (g : Grammar) : Reading Statement := do
  let decorated ← g.decorators
  word "export"
  if ← sees "\x7b" then exportClause g
  else if ← symbolIf "*" then
    if ← wordIf "as" then discard clauseName
    word "from"
    return .other (← source g)
  else if ← wordIf "default" then return decorateDefault decorated (← exportDefault g)
  else if (← peekPunctuation) == "=" then
    symbol "="
    let value ← g.expression
    endStatement
    return .other [value]
  else
    (do
      word "as"
      word "namespace"
      discard anyWord
      endStatement
      return .other []) <|>
    (do
      word "import"
      discard <| option do
        word "type"
        if (← peekPunctuation) == "=" then fail
      importAlias
      return .other []) <|>
    (do
      word "type"
      if ← sees "\x7b" then exportClause g
      else
        symbol "*"
        if ← wordIf "as" then discard clauseName
        word "from"
        return .other (← source g)) <|>
    (do
      let declared ← declaration g
      return .exportDeclaration (decorate decorated declared))

/-! ## Control flow -/

/-- The head of a loop that goes through values: `of` or `in` behind a binding. -/
def iteration (g : Grammar) : Reading (List Tree) := do
  let bound ←
    (do
      if !(← seesWordOf ["const", "let", "var"]) then fail
      discard anyWord
      let (_, parts) ← g.pattern false
      let types ← g.typeIf
      let value ← placeDefault g
      return parts ++ types ++ value) <|>
    (do
      let (_, parts) ← g.pattern true
      return parts)
  if !(← seesWordOf ["of", "in"]) then fail
  discard anyWord
  let values ← sequence g
  return bound ++ [values]

/-- The head of a loop with a start, a condition and a step. -/
def counting (g : Grammar) : Reading (List Tree) := do
  let first ←
    if ← symbolIf ";" then pure []
    else
      (do
        if !(← seesWordOf ["const", "let", "var"]) then fail
        discard anyWord
        let bindings ← declarators g
        symbol ";"
        return (Declaration.binding bindings).parts) <|>
      (do
        let value ← sequence g
        symbol ";"
        return [value])
  let second ← if ← sees ";" then pure [] else pure [← sequence g]
  symbol ";"
  let third ← if ← sees ")" then pure [] else pure [← sequence g]
  return first ++ second ++ third

/-- A loop that names what it goes through. -/
def forLoop (g : Grammar) : Reading (List Tree) := do
  word "for"
  discard <| wordIf "await"
  symbol "("
  let head ← bracketed (do
    let result ← withReader (fun scope ↦ { scope with admitsIn := false }) (iteration g)
    symbol ")"
    return result) <|> bracketed (do
    let result ← counting g
    symbol ")"
    return result)
  return head ++ (← nested g)

/-- The cases of a switch. -/
def cases (g : Grammar) : Reading (List Tree) := do
  symbol "\x7b"
  let all ← repeated do
    if ← sees "\x7d" then return none
    let label ←
      if ← wordIf "default" then pure []
      else
        word "case"
        let value ← withReader (fun scope ↦
          { scope with lineEnds := false, admitsResultType := false }) (sequence g)
        pure [value]
    symbol ":"
    let statements ← repeated do
      if (← sees "\x7d") || (← seesWord "case") || (← seesWord "default") then return none
      else return some (← nested g)
    return some (label ++ statements.flatten)
  symbol "\x7d"
  return all.flatten

/-- The blocks of a try statement. -/
def guarded (g : Grammar) : Reading (List Tree) := do
  word "try"
  let body ← block g
  let handler ←
    if ← wordIf "catch" then
      let parameter ←
        if ← symbolIf "(" then
          bracketed do
            let (_, parts) ← g.pattern false
            let types ← g.typeIf
            symbol ")"
            pure (parts ++ types)
        else pure []
      pure (parameter ++ (← block g))
    else pure []
  let last ← if ← wordIf "finally" then block g else pure []
  return body ++ handler ++ last

/-- A statement that may have a value behind its keyword. -/
def valued (g : Grammar) (keyword : String) (required : Bool) : Reading (List Tree) := do
  word keyword
  if !required && ((← lineEndCloses) || (← sees ";") || (← sees "\x7d")) then
    endStatement
    return []
  else
    let value ← sequence g
    endStatement
    return [value]

/-- A statement that goes on elsewhere. -/
def jump (keyword : String) : Reading (List Tree) := do
  word keyword
  if !(← lineEndCloses) && !(← sees ";") && !(← sees "\x7d") then discard anyWord
  endStatement
  return []

/-- A statement that is an expression. -/
def plain (g : Grammar) : Reading (List Tree) := do
  let value ← sequence g
  endStatement
  return [value]

/-- A statement with a label in front of it. -/
def labelled (g : Grammar) : Reading (List Tree) := do
  discard anyWord
  symbol ":"
  nested g

/-- The words that begin a declaration and nothing else. -/
def declarationOnlyWords : List String := ["const", "var", "enum", "interface", "abstract"]

/-- A statement that is no declaration, import or export. -/
def flow (g : Grammar) : Reading (List Tree) := do
  let name ← peekWord
  match name with
  | "if" =>
    word "if"
    let test ← condition g
    let consequence ← nested g
    let alternative ← if ← wordIf "else" then nested g else pure []
    return test :: consequence ++ alternative
  | "for" => forLoop g
  | "while" =>
    word "while"
    let test ← condition g
    return test :: (← nested g)
  | "do" =>
    word "do"
    let body ← nested g
    word "while"
    let test ← condition g
    discard <| symbolIf ";"
    return body ++ [test]
  | "switch" =>
    word "switch"
    let value ← condition g
    return value :: (← cases g)
  | "try" => guarded g
  | "return" => valued g "return" false
  | "throw" => valued g "throw" true
  | "break" => jump "break"
  | "continue" => jump "continue"
  | "debugger" => jump "debugger"
  | "with" =>
    word "with"
    let value ← condition g
    return value :: (← nested g)
  | _ =>
    if ← sees "\x7b" then block g <|> plain g
    else if ← symbolIf ";" then return []
    else if declarationOnlyWords.contains name then fail
    else if name != "" && (← ahead (anyWord *> symbol ":")) then labelled g
    else plain g

/-- The words that may begin a declaration. -/
def declarationWords : List String :=
  ["const", "let", "var", "function", "async", "class", "abstract", "interface", "type", "enum",
    "namespace", "module", "declare"]

/-- Skips lines that begin like the comments of a hypertext page. `fuel` bounds their count. -/
def skipHypertextComments : Nat → Reading Unit
  | 0 => pure ()
  | fuel + 1 => do
    if (← sees "<!--") || (← sees "-->") then
      space
      discard <| upTo fun source position ↦
        some (endOfRun source (fun c ↦ !isLineEnd c) position)
      skipHypertextComments fuel
    else pure ()

/-- A statement. -/
def ofGrammar (g : Grammar) : Reading Statement := do
  let name ← peekWord
  if name == "import" then
    importStatement g <|> do return .other (← flow g)
  else if name == "export" then exportStatement g
  else if ← sees "@" then
    exportStatement g <|> (do return .declaration (← classDeclaration g)) <|>
      (do return .other (← flow g))
  else if declarationWords.contains name then
    (do return .declaration (← declaration g)) <|> (do return .other (← flow g))
  else return .other (← flow g)

end StoryCatalog.Script.Statements
