import StoryCatalog.Script.Reading
import StoryCatalog.Script.Tree

/-!
# Tokens of story files

Blank space and comments, words, punctuation, numbers, quoted literals and regular expressions.
Readers of tokens skip the space before the token and stop right behind it. Reserved words are no
class of their own: a word is taken for a keyword only where the grammar asks for that keyword.
-/

namespace StoryCatalog.Script

/-- Whether a character is blank space between tokens. -/
def isSpace (c : Char) : Bool :=
  let n := c.toNat
  (0x09 ≤ n && n ≤ 0x0D) || n == 0x20 || n == 0x85 || n == 0xA0 || n == 0x1680 ||
    (0x2000 ≤ n && n ≤ 0x200B) || n == 0x2028 || n == 0x2029 || n == 0x202F || n == 0x205F ||
    n == 0x2060 || n == 0x3000 || n == 0xFEFF

/-- Whether a character ends a line comment. -/
def isLineEnd (c : Char) : Bool :=
  c == '\n' || c == '\r' || c.toNat == 0x2028 || c.toNat == 0x2029

/-- Whether a character may stand in a word. -/
def isWordPart (c : Char) : Bool :=
  if c.toNat < 0x80 then c.isAlphanum || c == '_' || c == '$' || c.toNat == 0x7F else !isSpace c

/-- Whether a character may begin a word. -/
def isWordStart (c : Char) : Bool := isWordPart c && !c.isDigit

/-- The first position from `position` on at which a class of characters ends. -/
def endOfRun (source : Array Char) (p : Char → Bool) (position : Nat) : Nat :=
  match h : source[position]? with
  | none => position
  | some c => if p c then endOfRun source p (position + 1) else position
termination_by source.size - position
decreasing_by
  have := (Array.getElem?_eq_some_iff.mp h).1
  omega

/-- The position behind a block comment whose body begins at `position`. -/
def endOfBlockComment? (source : Array Char) (position : Nat) : Option Nat :=
  match h : source[position]? with
  | none => none
  | some c =>
    if c = '*' && source[position + 1]? = some '/' then some (position + 2)
    else endOfBlockComment? source (position + 1)
termination_by source.size - position
decreasing_by
  have := (Array.getElem?_eq_some_iff.mp h).1
  omega

/-- The position behind the comment that begins at `position`, if one does. -/
def endOfComment? (source : Array Char) (position : Nat) : Option Nat :=
  if source[position]? = some '/' then
    if source[position + 1]? = some '/' then
      some (endOfRun source (fun c ↦ !isLineEnd c) (position + 2))
    else if source[position + 1]? = some '*' then endOfBlockComment? source (position + 2)
    else none
  else none

/-- The position of the first token from `position` on. `fuel` bounds the count of comments. -/
def endOfSpaceWith (source : Array Char) : (fuel position : Nat) → Nat
  | 0, position => position
  | fuel + 1, position =>
    let position := endOfRun source isSpace position
    match endOfComment? source position with
    | some next => endOfSpaceWith source fuel next
    | none => position

/-- The position of the first token from `position` on. -/
def endOfSpace (source : Array Char) (position : Nat) : Nat :=
  endOfSpaceWith source (source.size + 1) position

/-- Whether the characters at a position begin with those of a list. -/
def matchesAt (source : Array Char) : (position : Nat) → List Char → Bool
  | _, [] => true
  | position, c :: cs => source[position]? == some c && matchesAt source (position + 1) cs

/-- The value of a hexadecimal digit among characters. -/
def isHexDigit (c : Char) : Bool := (CodePoint.ofChar c).isHexDigit

/-- The position behind the escape sequence whose backslash is at `position`. -/
def endOfEscape? (source : Array Char) (position : Nat) : Option Nat :=
  match source[position + 1]? with
  | none => none
  | some 'x' =>
    let stop := endOfRun (source.extract 0 (position + 4)) isHexDigit (position + 2)
    if stop = position + 4 then some stop else none
  | some 'u' =>
    if source[position + 2]? = some '{' then
      let stop := endOfRun source isHexDigit (position + 3)
      if position + 3 < stop && source[stop]? = some '}' then some (stop + 1) else none
    else
      let stop := endOfRun (source.extract 0 (position + 6)) isHexDigit (position + 2)
      if stop = position + 6 then some stop else none
  | some c =>
    if '0' ≤ c && c ≤ '7' then
      some (endOfRun (source.extract 0 (position + 4)) (fun d ↦ '0' ≤ d && d ≤ '7') (position + 1))
    else if (c = '\r' || c = '?') &&
        (source[position + 2]?.map fun d ↦ isLineEnd d && d != '\r') = some true then
      some (position + 3)
    else some (position + 2)

/-- The position behind the word at `position`, with unicode escapes in it. `fuel` bounds the count
of escapes. -/
def endOfWordWith (source : Array Char) : (fuel position : Nat) → Nat
  | 0, position => position
  | fuel + 1, position =>
    let stop := endOfRun source isWordPart position
    if source[stop]? = some '\\' && source[stop + 1]? = some 'u' then
      match endOfEscape? source stop with
      | some next => endOfWordWith source fuel next
      | none => stop
    else stop

/-- The position behind the word at `position`; the position itself if there is no word. -/
def endOfWord (source : Array Char) (position : Nat) : Nat :=
  match source[position]? with
  | some c =>
    if isWordStart c || c = '\\' then endOfWordWith source (source.size + 1) position
    else position
  | none => position

/-- The position behind digits of a class with single underscores between them; nothing if no digit
stands at `position`. `fuel` bounds the count of underscores. -/
def endOfDigits? (source : Array Char) (p : Char → Bool) : (fuel position : Nat) → Option Nat
  | 0, _ => none
  | fuel + 1, position =>
    let stop := endOfRun source p position
    if stop = position then none
    else if source[stop]? = some '_' then some ((endOfDigits? source p fuel (stop + 1)).getD stop)
    else some stop

/-- The position behind a power of ten written at `position`, or `position`. -/
def endOfPower (source : Array Char) (position : Nat) : Nat :=
  match source[position]? with
  | some c =>
    if c = 'e' || c = 'E' then
      let start :=
        if source[position + 1]? = some '+' || source[position + 1]? = some '-' then position + 2
        else position + 1
      (endOfDigits? source Char.isDigit (source.size + 1) start).getD position
    else position
  | none => position

/-- The digits of a numeric literal with a base mark, such as `0x1F`. -/
def endOfBased? (source : Array Char) (position : Nat) (marks : List Char) (p : Char → Bool) :
    Option Nat :=
  match source[position + 1]? with
  | some c =>
    if source[position]? = some '0' && marks.contains c then
      endOfDigits? source p (source.size + 1) (position + 2)
    else none
  | none => none

/-- Whether digits may have a point or a power of ten behind them: a zero alone, or digits of which
the first or the one behind a zero is no zero. -/
def isDecimalInteger (source : Array Char) (start stop : Nat) : Bool :=
  match source[start]? with
  | some '0' =>
    stop = start + 1 || (source[start + 1]?.map fun c ↦ c.isDigit && c != '0') == some true
  | _ => true

/-- The position behind the numeric literal at `position`. -/
def endOfNumber? (source : Array Char) (position : Nat) : Option Nat :=
  let suffixed (stop : Nat) := if source[stop]? = some 'n' then stop + 1 else stop
  let digits (start : Nat) := endOfDigits? source Char.isDigit (source.size + 1) start
  let based :=
    endOfBased? source position ['x', 'X'] isHexDigit <|>
      endOfBased? source position ['o', 'O'] (fun c ↦ '0' ≤ c && c ≤ '7') <|>
      endOfBased? source position ['b', 'B'] (fun c ↦ c = '0' || c = '1')
  match based with
  | some stop => some (suffixed stop)
  | none =>
    match digits position with
    | some stop =>
      if isDecimalInteger source position stop then
        if source[stop]? = some '.' then
          some (endOfPower source ((digits (stop + 1)).getD (stop + 1)))
        else
          let next := endOfPower source stop
          if next = stop then some (suffixed stop) else some next
      else some (suffixed stop)
    | none =>
      if source[position]? = some '.' then (digits (position + 1)).map (endOfPower source) else none

/-- The position behind the body of a class in a regular expression. `fuel` bounds its length. -/
def endOfRegexClass? (source : Array Char) : (fuel position : Nat) → Option Nat
  | 0, _ => none
  | fuel + 1, position =>
    match source[position]? with
    | none => none
    | some ']' => some (position + 1)
    | some '\\' =>
      if (source[position + 1]?.map fun c ↦ c != '\n') == some true then
        endOfRegexClass? source fuel (position + 2)
      else none
    | some c => if c = '\n' then none else endOfRegexClass? source fuel (position + 1)

/-- The position behind the closing slash of a regular expression. `fuel` bounds its length. -/
def endOfRegexBody? (source : Array Char) : (fuel position : Nat) → Option Nat
  | 0, _ => none
  | fuel + 1, position =>
    match source[position]? with
    | none => none
    | some '/' => some (position + 1)
    | some '\\' =>
      if (source[position + 1]?.map fun c ↦ c != '\n') == some true then
        endOfRegexBody? source fuel (position + 2)
      else none
    | some '[' =>
      match endOfRegexClass? source fuel (position + 1) with
      | some next => endOfRegexBody? source fuel next
      | none => none
    | some c => if c = '\n' then none else endOfRegexBody? source fuel (position + 1)

/-- Whether a line end at `position` closes a statement although the statement could go on behind
it. After an expression an opening bracket or parenthesis carries on; after a type it does not. -/
def lineCarriesOn (source : Array Char) (afterExpression : Bool) (position : Nat) : Bool :=
  let at' (n : Nat) := source[position + n]?
  match source[position]? with
  | none => false
  | some '+' => at' 1 != some '+'
  | some '-' => at' 1 != some '-'
  | some '!' => at' 1 == some '='
  | some 'i' =>
    let isLetter (c : Option Char) := (c.map fun c ↦ c.isAlpha) == some true
    if at' 1 != some 'n' then false
    else if !isLetter (at' 2) then true
    else matchesAt source (position + 2) "stanceof".toList && !isLetter (at' 10)
  | some c =>
    if c = '(' || c = '[' then afterExpression
    else "`,.;*%><=?^|&/:".toList.contains c

/-- Whether a statement that may be complete at `position` is closed there without a semicolon:
the text ends, a brace closes, or the line ends and the next one does not carry on. -/
def closesStatement (source : Array Char) (afterExpression : Bool) (position : Nat) : Bool :=
  let next := endOfSpace source position
  match source[next]? with
  | none => true
  | some c =>
    let space := (source.extract position next).toList
    let breaks := space.any fun d ↦ d == '\n' || d.toNat == 0x2028 || d.toNat == 0x2029
    if c = '}' then
      let behind := endOfRun source isSpace (next + 1)
      breaks || source[behind]? != some ':' || afterExpression
    else breaks && !lineCarriesOn source afterExpression next

namespace Reading

/-- Skips blank space and comments. -/
def space : Reading Unit := fun scope position ↦ .ok ((), endOfSpace scope.source position)

/-- The character at the position, without moving. -/
def peek : Reading (Option Char) := fun scope position ↦ .ok (scope.source[position]?, position)

/-- What a function of the source says about the next token; the position stays. -/
def lookAhead {α : Type} (f : Array Char → Nat → α) : Reading α := fun scope position ↦
  .ok (f scope.source (endOfSpace scope.source position), position)

/-- The position at which the next token starts. -/
def start : Reading Nat := lookAhead fun _ position ↦ position

/-- The first character of the next token. -/
def next : Reading (Option Char) := lookAhead fun source position ↦ source[position]?

/-- Whether the next token begins with given characters. -/
def sees (token : String) : Reading Bool :=
  lookAhead fun source position ↦ matchesAt source position token.toList

/-- Reads given characters right at the position. -/
def exactly (token : String) : Reading Unit := fun scope position ↦
  if matchesAt scope.source position token.toList then .ok ((), position + token.length)
  else .error ⟨position, scope.statement⟩

/-- Reads given characters as the next token. -/
def symbol (token : String) : Reading Unit := do
  space
  exactly token

/-- Reads given characters if they are the next token. -/
def symbolIf (token : String) : Reading Bool := do
  if ← sees token then
    symbol token
    return true
  else return false

/-- The characters of the word at the next token; none if it is no word. -/
def peekWord : Reading String := lookAhead fun source position ↦
  String.ofList (source.extract position (endOfWord source position)).toList

/-- Whether the next token is a given word. -/
def seesWord (word : String) : Reading Bool := return (← peekWord) == word

/-- Whether the next token is one of given words. -/
def seesWordOf (words : List String) : Reading Bool := return words.contains (← peekWord)

/-- Reads a word of any kind. -/
def anyWord : Reading Text := do
  space
  fun scope position ↦
    let stop := endOfWord scope.source position
    if stop = position then .error ⟨position, scope.statement⟩
    else .ok (Text.ofChars (scope.source.extract position stop).toList, stop)

/-- Reads a given word. -/
def word (expected : String) : Reading Unit := do
  if ← seesWord expected then discard anyWord else fail

/-- Reads a given word if it is the next token. -/
def wordIf (expected : String) : Reading Bool := do
  if ← seesWord expected then
    discard anyWord
    return true
  else return false

/-- Reads the characters up to a position that the source determines. -/
def upTo (stop? : Array Char → Nat → Option Nat) : Reading Text := fun scope position ↦
  match stop? scope.source position with
  | some stop =>
    .ok (Text.ofChars (scope.source.extract position stop).toList, stop)
  | none => .error ⟨position, scope.statement⟩

/-- Reads a numeric literal. -/
def number : Reading Text := do
  space
  upTo endOfNumber?

/-- Reads a regular expression with its flags. -/
def regex : Reading Text := do
  space
  upTo fun source position ↦
    if source[position]? = some '/' then
      (endOfRegexBody? source (source.size + 1) (position + 1)).bind fun stop ↦
        if stop ≤ position + 2 then none else some (endOfRun source Char.isLower stop)
    else none

/-- Reads an escape sequence. -/
def escape : Reading Text := upTo endOfEscape?

/-- Reads one piece of a quoted literal; nothing at the closing quote. -/
def piece (quote : Char) : Reading (Option Piece) := do
  match ← peek with
  | none => fail
  | some c =>
    if c = quote then return none
    else if c = '\\' then return some (.escape (← escape))
    else if c = '\n' || c = '\r' then fail
    else
      let isPlain (d : Char) : Bool := d != quote && d != '\\' && d != '\n' && d != '\r'
      return some (.fragment (← upTo fun source position ↦ some (endOfRun source isPlain position)))

/-- Reads a quoted literal. -/
def quoted : Reading (List Piece) := do
  match ← next with
  | some quote =>
    if quote = '"' || quote = '\'' then
      symbol quote.toString
      let pieces ← repeated (piece quote)
      exactly quote.toString
      return pieces
    else fail
  | none => fail

/-- The punctuation made of several characters, longer ones first. -/
def longPunctuation : List String :=
  [">>>=", "...", "===", "!==", "**=", "<<=", ">>=", ">>>", "&&=", "||=", "??=", "=>", "==", "!=",
    "<=", ">=", "&&", "||", "??", "?.", "++", "--", "+=", "-=", "*=", "/=", "%=", "&=", "|=", "^=",
    "<<", ">>", "**"]

/-- The longest punctuation at the next token. -/
def peekPunctuation : Reading String := lookAhead fun source position ↦
  match longPunctuation.find? fun token ↦ matchesAt source position token.toList with
  | some token => token
  | none => (source[position]?.map Char.toString).getD ""

/-- Whether a statement is closed here without a semicolon, where line ends can close it. -/
def lineEndCloses (afterExpression : Bool := true) : Reading Bool := fun scope position ↦
  .ok (scope.lineEnds && closesStatement scope.source afterExpression position, position)

/-- Reads the end of a statement: a semicolon, or a place that closes it without one. -/
def endStatement (afterExpression : Bool := true) : Reading Unit := do
  if ← symbolIf ";" then return
  fun scope position ↦
    if closesStatement scope.source afterExpression position then .ok ((), position)
    else .error ⟨endOfSpace scope.source position, scope.statement⟩

/-- The items that a reader gives between commas, up to a closing token that stays. Places between
two commas may be left empty. -/
def commaItems {α : Type} (closing : String) (item : Reading α) : Reading (List α) := do
  let items ← repeated do
    if ← symbolIf "," then return some none
    else if ← sees closing then return none
    else
      let result ← item
      if ← sees closing then return some (some result)
      symbol ","
      return some (some result)
  return items.filterMap id

/-- One or more items between commas; a comma may follow the last one. -/
def commaList {α : Type} (closing : String) (item : Reading α) : Reading (List α) := do
  let first ← item
  let rest ← repeated do
    if ← symbolIf "," then
      if ← sees closing then return some none
      else return some (some (← item))
    else return none
  return first :: rest.filterMap id

end Reading

end StoryCatalog.Script
