import StoryCatalog.Files
import StoryCatalog.Text.Blank
import StoryCatalog.Text.Case

/-!
# Environments

Variables and their values, as the process has them or as a file of lines `NAME=value` gives them.
A value in quotes may hold line breaks and escapes; a value may refer to other variables. A line
that cannot be read is left out. Main statement: the first unescaped quote ends a quoted value
(`takeQuoted_of_not_mem`).
-/

namespace StoryCatalog

/-- Variables, each with its value. -/
abbrev Environment := Fields Text

namespace Environment

private def newline : CodePoint := CodePoint.ofChar '\n'
def backslash : CodePoint := CodePoint.ofChar '\\'
private def hash : CodePoint := CodePoint.ofChar '#'
private def equals : CodePoint := CodePoint.ofChar '='
private def apostrophe : CodePoint := CodePoint.ofChar '\''
def quotationMark : CodePoint := CodePoint.ofChar '"'
private def leftBrace : CodePoint := CodePoint.ofChar '\x7b'
private def rightBrace : CodePoint := CodePoint.ofChar '\x7d'
private def dollar : CodePoint := CodePoint.ofChar '$'

/-- The variables under names in lower case; of names that become one, the last has the value. -/
def lowered (environment : Environment) : Environment :=
  Fields.ofList (environment.map fun (name, value) ↦ (Text.lower name, value))

/-- The user's home directory. -/
def home (environment : Environment) : Path := Path.ofText ((environment.get? "HOME").getD "/")

/-! ### Lines -/

/-- A text without the space at the start of its line. -/
def dropSpace (t : Text) : Text := t.dropWhile fun c ↦ c.isBlank && c != newline

/-- A text without the word that marks a variable for export, if a space follows it. -/
def dropExport (t : Text) : Text :=
  let rest := t.drop 6
  if Text.startsWith t "export" && (dropSpace rest).length < rest.length then dropSpace rest else t

/-- What is read from a text with the text after it, or the text at which nothing can be read. -/
abbrev Reading (α : Type) := Except Text (α × Text)

/-- Reads the name of a variable; a comment has none. -/
def readName (t : Text) : Reading (Option Text) :=
  if t.head? = some hash then .ok (none, t)
  else if t.head? = some apostrophe then
    let name := t.tail.takeWhile (· != apostrophe)
    let rest := t.tail.dropWhile (· != apostrophe)
    if name.isEmpty || rest.isEmpty then .error t else .ok (some name, rest.tail)
  else
    let isName (c : CodePoint) : Bool := c != equals && c != hash && !c.isBlank
    let name := t.takeWhile isName
    if name.isEmpty then .error t else .ok (some name, t.dropWhile isName)

/-- The text up to the quote that ends it, and the text after that. A quote after a backslash ends
the text only if no other does. -/
def takeQuoted (quote : CodePoint) : Text → Option (Text × Text)
  | [] => none
  | [c] => if c = quote then some ([], []) else none
  | c :: d :: rest =>
    if c = quote then some ([], d :: rest)
    else if c = backslash ∧ d = quote then
      match takeQuoted quote rest with
      | some (inner, after) => some (c :: d :: inner, after)
      | none => some ([c], rest)
    else (takeQuoted quote (d :: rest)).map fun (inner, after) ↦ (c :: inner, after)

/-- The code points that escapes with one letter stand for. -/
def escapes : List (Char × Nat) :=
  [('a', 7), ('b', 8), ('f', 12), ('n', 10), ('r', 13), ('t', 9), ('v', 11)]

/-- The code point that an escape in a quoted value stands for. In apostrophes only the apostrophe
and the backslash are escaped. -/
def unescaped? (quote c : CodePoint) : Option CodePoint :=
  if c = backslash || c = apostrophe then some c
  else if quote = apostrophe then none
  else if c = quotationMark then some c
  else ((escapes.find? fun e ↦ CodePoint.ofChar e.1 == c).bind fun e ↦ CodePoint.ofNat? e.2)

/-- A quoted value with its escapes replaced. -/
def unescape (quote : CodePoint) : Text → Text
  | [] => []
  | [c] => [c]
  | c :: d :: rest =>
    match if c = backslash then unescaped? quote d else none with
    | some e => e :: unescape quote rest
    | none => c :: unescape quote (d :: rest)

/-- A value without quotes up to a comment, which stands behind a space. -/
def dropComment : Text → Text
  | [] => []
  | c :: rest =>
    if c.isBlank && ((c :: rest).dropWhile (·.isBlank)).head? = some hash then []
    else c :: dropComment rest

/-- Reads the value of a variable. -/
def readValue (t : Text) : Reading Text :=
  match t with
  | [] => .ok ([], [])
  | c :: rest =>
    if c = apostrophe || c = quotationMark then
      match takeQuoted c rest with
      | some (inner, after) => .ok (unescape c inner, after)
      | none => .error t
    else
      let line := t.takeWhile (· != newline)
      .ok (Text.dropEndWhile (dropComment line) (·.isBlank), t.dropWhile (· != newline))

/-- Reads the rest of a line, which may be a comment. -/
def readEnd (t : Text) : Reading Unit :=
  let rest := dropSpace t
  let rest := if rest.head? = some hash then rest.dropWhile (· != newline) else rest
  match rest with
  | [] => .ok ((), [])
  | c :: after => if c = newline then .ok ((), after) else .error t

/-- Reads one line; a variable without a value has none. -/
def readLine (t : Text) : Except Text (Option (Text × Option Text) × Text) := do
  let t := t.dropWhile (·.isBlank)
  if t.isEmpty then return (none, [])
  let (name, t) ← readName (dropExport t)
  let t := dropSpace t
  let (value, t) ←
    if t.head? = some equals then do
      let (value, t) ← readValue (dropSpace t.tail)
      pure (some value, t)
    else pure (none, t)
  let ((), t) ← readEnd t
  return (name.map fun name ↦ (name, value), t)

/-- Reads all lines and leaves out those that cannot be read. -/
def readLines (t : Text) : List (Text × Option Text) :=
  if t.isEmpty then []
  else
    let (line, rest) :=
      match readLine t with
      | .ok (line, rest) => (line, rest)
      | .error rest => (none, (rest.dropWhile (· != newline)).drop 1)
    if rest.length < t.length then line.toList ++ readLines rest else line.toList
termination_by t.length

/-! ### References -/

/-- A reference to a variable behind a dollar sign and a brace: the name, what stands for a variable
that is missing, and the count of its code points. -/
def reference? (t : Text) : Option (Text × Text × Nat) :=
  let name := t.takeWhile fun c ↦ c != rightBrace && c != CodePoint.ofChar ':'
  let rest := t.drop name.length
  if rest.head? = some rightBrace then some (name, [], name.length + 1)
  else if Text.startsWith rest ":-" then
    let other := (rest.drop 2).takeWhile (· != rightBrace)
    if (rest.drop 2).length = other.length then none
    else some (name, other, name.length + 2 + other.length + 1)
  else none

/-- A value with the variables that it refers to in it. The count tells how many code points still
belong to a reference. -/
def expandFrom (environment : Environment) (count : Nat) : Text → Text
  | [] => []
  | c :: rest =>
    match count with
    | n + 1 => expandFrom environment n rest
    | 0 =>
      match if c = dollar && rest.head? = some leftBrace then reference? rest.tail else none with
      | some (name, other, length) =>
        (Fields.get? environment name).getD other ++ expandFrom environment (length + 1) rest
      | none => c :: expandFrom environment 0 rest

/-- The variables of lines, each expanded by those before it and by an outer environment. -/
def expandAll (outer : Environment) (lines : List (Text × Option Text)) :
    Fields (Option Text) :=
  lines.foldl (fun known (name, value) ↦
    let inner : Environment := known.map fun (name, value) ↦ (name, value.getD [])
    Fields.put known name (value.map (expandFrom (Fields.merge outer inner) 0))) []

/-- The variables that the lines of a text give a value. -/
def ofText (outer : Environment) (t : Text) : Environment :=
  (expandAll outer (readLines t)).filterMap fun (name, value) ↦ value.map fun v ↦ (name, v)

/-- A text that begins with a quote ends there. -/
theorem takeQuoted_cons_self (quote : CodePoint) (rest : Text) :
    takeQuoted quote (quote :: rest) = some ([], rest) := by
  cases rest <;> simp [takeQuoted]

/-- A code point that is neither the quote nor a backslash belongs to the text before the quote. -/
theorem takeQuoted_cons {quote c : CodePoint} {t : Text} (hquote : c ≠ quote)
    (hbackslash : c ≠ backslash) :
    takeQuoted quote (c :: t) = (takeQuoted quote t).map fun r ↦ (c :: r.1, r.2) := by
  cases t <;> simp [takeQuoted, hquote, hbackslash]

/-- Without quotes and backslashes before it, the first quote ends a quoted value. -/
theorem takeQuoted_of_not_mem {quote : CodePoint} {inner : Text} (rest : Text)
    (hquote : quote ∉ inner) (hbackslash : backslash ∉ inner) :
    takeQuoted quote (inner ++ quote :: rest) = some (inner, rest) := by
  induction inner with
  | nil => exact takeQuoted_cons_self quote rest
  | cons c inner ih =>
    simp only [List.mem_cons, not_or] at hquote hbackslash
    rw [List.cons_append, takeQuoted_cons (Ne.symm hquote.1) (Ne.symm hbackslash.1),
      ih hquote.2 hbackslash.2]
    rfl

end Environment

end StoryCatalog
