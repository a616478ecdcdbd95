import StoryCatalog.Json.Basic
import StoryCatalog.Text.Quoted

/-!
# Writing values

`Json.print` writes a value as a JSON document, and `Json.display` as a text for people. Both fail
on an integer beyond the digit limit, and on nothing else.
-/

namespace StoryCatalog

namespace Json

/-- How documents are laid out: on one line with given separators, or indented. -/
inductive Layout where
  | line (comma colon : Text)
  | indented (width : Nat)

namespace Layout

/-- One line with a blank after each comma and colon. -/
def spaced : Layout := .line ", " ": "

/-- One line without blanks. -/
def compact : Layout := .line "," ":"

/-- The line break before a member at a depth. -/
def lineBreak (layout : Layout) (depth : Nat) : Text :=
  match layout with
  | .line .. => []
  | .indented width =>
    CodePoint.ofChar '\n' :: List.replicate (width * depth) (CodePoint.ofChar ' ')

/-- What stands between two members at a depth. -/
def comma (layout : Layout) (depth : Nat) : Text :=
  match layout with
  | .line comma _ => comma
  | .indented _ => CodePoint.ofChar ',' :: layout.lineBreak depth

/-- What stands between a key and its value. -/
def colon : Layout → Text
  | .line _ colon => colon
  | .indented _ => ": "

end Layout

/-- A code point inside a string: quotes, backslashes and controls are escaped. -/
def escaped (c : CodePoint) : Text :=
  if c.val = 0x22 then "\\\""
  else if c.val = 0x5C then "\\\\"
  else if c.val = 0x0A then "\\n"
  else if c.val = 0x0D then "\\r"
  else if c.val = 0x09 then "\\t"
  else if c.val = 0x0C then "\\f"
  else if c.val = 0x08 then "\\b"
  else if c.val < 0x20 then "\\u" ++ CodePoint.hexDigits 4 c.val
  else [c]

/-- A string in quotes. -/
def printString (t : Text) : Text :=
  [CodePoint.ofChar '"'] ++ t.flatMap escaped ++ [CodePoint.ofChar '"']

/-- A number; infinities and NaN have words of their own. -/
def printNumber : Number → Except TooManyDigits Text
  | .int n => if Number.fitsLimit n then .ok (Text.ofInt n) else .error .tooManyDigits
  | .float x => .ok (x.textWith "Infinity" "NaN")

mutual

/-- The document of a value whose first line stands at a depth. -/
def printAt (layout : Layout) (depth : Nat) : Json → Except TooManyDigits Text
  | .null => .ok "null"
  | .bool b => .ok (if b then "true" else "false")
  | .number n => printNumber n
  | .string t => .ok (printString t)
  | .array [] => .ok "[]"
  | .array (item :: items) => do
    let first ← printAt layout (depth + 1) item
    let rest ← printItems layout (depth + 1) items
    return Text.concat ["[", layout.lineBreak (depth + 1), first, rest, layout.lineBreak depth, "]"]
  | .object [] => .ok "\x7b\x7d"
  | .object ((key, value) :: fields) => do
    let first ← printAt layout (depth + 1) value
    let rest ← printFields layout (depth + 1) fields
    return Text.concat ["\x7b", layout.lineBreak (depth + 1), printString key, layout.colon, first,
      rest, layout.lineBreak depth, "\x7d"]

/-- The further items of an array, each after a comma. -/
def printItems (layout : Layout) (depth : Nat) : List Json → Except TooManyDigits Text
  | [] => .ok []
  | item :: items => do
    let first ← printAt layout depth item
    let rest ← printItems layout depth items
    return Text.concat [layout.comma depth, first, rest]

/-- The further fields of an object, each after a comma. -/
def printFields (layout : Layout) (depth : Nat) : List (Text × Json) → Except TooManyDigits Text
  | [] => .ok []
  | (key, value) :: fields => do
    let first ← printAt layout depth value
    let rest ← printFields layout depth fields
    return Text.concat [layout.comma depth, printString key, layout.colon, first, rest]

end

/-- The document of a value. -/
def print (layout : Layout) (value : Json) : Except TooManyDigits Text := printAt layout 0 value

mutual

/-- The text of a value inside a displayed one: strings stand in quotes. -/
def displayInner : Json → Except TooManyDigits Text
  | .null => .ok "None"
  | .bool b => .ok (if b then "True" else "False")
  | .number (.int n) => if Number.fitsLimit n then .ok (Text.ofInt n) else .error .tooManyDigits
  | .number (.float x) => .ok x.text
  | .string t => .ok t.quoted
  | .array items => do
    let inner ← displayItems items
    return Text.concat ["[", Text.join ", " inner, "]"]
  | .object fields => do
    let inner ← displayFields fields
    return Text.concat ["\x7b", Text.join ", " inner, "\x7d"]

/-- The texts of items. -/
def displayItems : List Json → Except TooManyDigits (List Text)
  | [] => .ok []
  | item :: items => do
    let first ← displayInner item
    let rest ← displayItems items
    return first :: rest

/-- The texts of fields. -/
def displayFields : List (Text × Json) → Except TooManyDigits (List Text)
  | [] => .ok []
  | (key, value) :: fields => do
    let first ← displayInner value
    let rest ← displayFields fields
    return Text.concat [key.quoted, ": ", first] :: rest

end

/-- The text of a value for people: a string is its own text. -/
def display : Json → Except TooManyDigits Text
  | .string t => .ok t
  | value => displayInner value

end Json

end StoryCatalog
