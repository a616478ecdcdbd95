import StoryCatalog.Script.Types

/-!
# Markup in story files

Elements with attributes and children. Text between tags is any run of characters other than
brackets, braces and `&`; an `&` has to begin a character reference. The names of an opening and a
closing tag need not agree.
-/

namespace StoryCatalog.Script.Markup

open Reading

/-- A word of markup, in which hyphens may stand. -/
def name : Reading Unit := do
  discard anyWord
  discard <| repeated do
    if (← peek) == some '-' then
      exactly "-"
      discard <| upTo fun source position ↦
        some (endOfRun source (fun c ↦ isWordPart c) position)
      return some ()
    else return none

/-- The name of an element, with members or a namespace. -/
def elementName : Reading Unit := do
  name
  if ← symbolIf ":" then name
  else
    discard <| repeated do
      if ← symbolIf "." then
        name
        return some ()
      else return none

/-- The position behind the character reference at `position`. -/
def endOfReference? (source : Array Char) (position : Nat) : Option Nat :=
  if source[position]? ≠ some '&' then none
  else
    let start := position + 1
    let stop (p : Char → Bool) (start least most : Nat) : Option Nat :=
      let stop := endOfRun source p start
      if start + least ≤ stop && stop ≤ start + most && source[stop]? = some ';' then
        some (stop + 1)
      else none
    if source[start]? = some '#' then
      if source[start + 1]? = some 'x' || source[start + 1]? = some 'X' then
        stop isHexDigit (start + 2) 1 6
      else stop Char.isDigit (start + 1) 1 5
    else stop Char.isAlpha start 1 30

/-- A quoted attribute value; backslashes and line breaks have no meaning in it. -/
def attributeText (quote : Char) : Reading Unit := do
  symbol quote.toString
  discard <| repeated do
    match ← peek with
    | none => fail
    | some c =>
      if c = quote then return none
      else if c = '&' then
        discard <| upTo fun source position ↦
          endOfReference? source position <|>
            match source[position + 1]? with
            | some d => if d = '#' || d.isAlpha then none else some (position + 2)
            | none => none
        return some ()
      else
        discard <| upTo fun source position ↦
          some (endOfRun source (fun d ↦ d != quote && d != '&') position)
        return some ()
  exactly quote.toString

/-- An expression in braces; it may be missing, a sequence or a spread. -/
def embedded (g : Grammar) : Reading (List Tree) := do
  symbol "\x7b"
  bracketed do
    let parts ←
      if ← sees "\x7d" then pure []
      else if ← symbolIf "..." then pure [← g.expression]
      else
        let first ← g.expression
        let rest ← repeated do
          if ← symbolIf "," then return some (← g.expression) else return none
        pure (first :: rest)
    symbol "\x7d"
    return parts

/-- The value of an attribute. -/
def attributeValue (g : Grammar) : Reading (List Tree) := do
  match ← next with
  | some c =>
    if c = '"' || c = '\'' then
      attributeText c
      return []
    else if c = '{' then embedded g
    else return [← g.markup]
  | none => fail

/-- An attribute: a name that may have a value, or an expression in braces. -/
def oneAttribute (g : Grammar) : Reading (List Tree) := do
  if ← sees "\x7b" then embedded g
  else
    name
    if ← symbolIf ":" then name
    if ← symbolIf "=" then attributeValue g else return []

/-- The attributes of a tag. -/
def attributes (g : Grammar) : Reading (List Tree) := do
  let all ← repeated do
    match ← next with
    | some c => if c = '{' || isWordStart c then return some (← oneAttribute g) else return none
    | none => fail
  return all.flatten

/-- A child of an element; nothing at a closing tag. -/
def child (g : Grammar) : Reading (Option (List Tree)) := do
  match ← peek with
  | none => fail
  | some c =>
    if c = '{' then return some (← embedded g)
    else if c = '&' then
      discard <| upTo endOfReference?
      return some []
    else if c = '<' then
      if ← ahead (exactly "</") then return none
      else return some [← g.markup]
    else if c = '>' || c = '}' then fail
    else
      discard <| upTo fun source position ↦
        some (endOfRun source (fun d ↦ !"<>\x7b\x7d&".toList.contains d) position)
      return some []

/-- An element, or a fragment whose tags have no name. -/
def ofGrammar (g : Grammar) : Reading Tree := do
  symbol "<"
  bracketed do
    let inner ←
      if ← sees ">" then pure []
      else
        elementName
        let types ← if ← sees "<" then Types.arguments g else pure []
        pure (types ++ (← attributes g))
    if ← symbolIf "/" then
      exactly ">"
      return .markup .selfClosing inner
    symbol ">"
    let children ← repeated (child g)
    symbol "</"
    if !(← sees ">") then elementName
    symbol ">"
    return .markup .element (inner ++ children.flatten)

end StoryCatalog.Script.Markup
