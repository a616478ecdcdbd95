import StoryCatalog.Json.Basic
import StoryCatalog.Number.Decimal

/-!
# Reading JSON

A JSON document is read from its code points. Beyond the standard, `NaN`, `Infinity` and
`-Infinity` are numbers, and an escaped surrogate that has no partner stays a surrogate. A fault
names what was expected and where, as an offset in code points with its line and column.
-/

namespace StoryCatalog

namespace Json

/-- What is wrong with a JSON text. -/
inductive Fault where
  | byteOrderMark
  | value
  | propertyName
  | colon
  | comma
  | extraData
  | unterminatedString
  | controlCharacter
  | escape
  | unicodeEscape
  deriving DecidableEq, Repr

/-- The wording of a fault. -/
def Fault.message : Fault → String
  | .byteOrderMark => "Unexpected UTF-8 BOM (decode using utf-8-sig)"
  | .value => "Expecting value"
  | .propertyName => "Expecting property name enclosed in double quotes"
  | .colon => "Expecting ':' delimiter"
  | .comma => "Expecting ',' delimiter"
  | .extraData => "Extra data"
  | .unterminatedString => "Unterminated string starting at"
  | .controlCharacter => "Invalid control character at"
  | .escape => "Invalid \\escape"
  | .unicodeEscape => "Invalid \\uXXXX escape"

/-- Why a text is not read: a fault at an offset, or an integer with too many digits. -/
inductive ReadError where
  | malformed (fault : Fault) (offset line column : Nat)
  | tooManyDigits (count : Nat)
  deriving DecidableEq, Repr

/-- The wording of a read error. -/
def ReadError.message : ReadError → Text
  | .malformed fault offset line column =>
    Text.concat [fault.message, ": line ", Text.ofNat line, " column ", Text.ofNat column,
      " (char ", Text.ofNat offset, ")"]
  | .tooManyDigits count =>
    Text.concat ["Exceeds the limit (", Text.ofNat Number.digitLimit,
      " digits) for integer string conversion: value has ", Text.ofNat count,
      " digits; use sys.set_int_max_str_digits() to increase the limit"]

/-- A failure inside a text, before its line is known. -/
inductive Stop where
  | fault (fault : Fault) (offset : Nat)
  | tooManyDigits (count : Nat)
  deriving DecidableEq, Repr

/-- What is left of a text, and its offset. -/
structure Cursor where
  offset : Nat
  rest : Text

namespace Cursor

/-- The cursor after `n` code points. -/
def advance (cursor : Cursor) (n : Nat) : Cursor := ⟨cursor.offset + n, cursor.rest.drop n⟩

/-- The code point at the cursor. -/
def head? (cursor : Cursor) : Option CodePoint := cursor.rest.head?

/-- Whether a code point may stand between tokens. -/
def isSpace (c : CodePoint) : Bool :=
  c.val == 0x20 || c.val == 0x09 || c.val == 0x0A || c.val == 0x0D

/-- The cursor after the space at it. -/
def skipSpace (cursor : Cursor) : Cursor :=
  cursor.advance (cursor.rest.takeWhile isSpace).length

/-- Whether the text at the cursor begins with a word. -/
def sees (cursor : Cursor) (word : String) : Bool := Text.startsWith cursor.rest word

end Cursor

/-- The number that four hexadecimal digits at the start of a text denote. -/
def fourHex? (t : Text) : Option Nat :=
  let digits := (t.take 4).filterMap CodePoint.hexValue?
  if digits.length = 4 then some (Text.readDigits 16 digits) else none

/-- The code point of a number below `2 ^ 16`, or of a joined pair of surrogates. -/
def unitPoint (n : Nat) : CodePoint := (CodePoint.ofNat? n).getD default

/-- The code point that a pair of surrogates encodes. -/
def joinSurrogates (high low : Nat) : Nat := 0x10000 + (high - 0xD800) * 0x400 + (low - 0xDC00)

/-- Decodes what follows a backslash at `offset`: the code point, and how many it takes. -/
def readEscape (start offset : Nat) (t : Text) : Except Stop (CodePoint × Nat) :=
  match t with
  | [] => .error (.fault .unterminatedString start)
  | c :: rest =>
    if c.val = 0x22 || c.val = 0x5C || c.val = 0x2F then .ok (c, 1)
    else if c.val = 0x62 then .ok (unitPoint 0x08, 1)
    else if c.val = 0x66 then .ok (unitPoint 0x0C, 1)
    else if c.val = 0x6E then .ok (unitPoint 0x0A, 1)
    else if c.val = 0x72 then .ok (unitPoint 0x0D, 1)
    else if c.val = 0x74 then .ok (unitPoint 0x09, 1)
    else if c.val ≠ 0x75 then .error (.fault .escape offset)
    else if rest.length < 5 then .error (.fault .unicodeEscape (offset + 1))
    else
      match fourHex? rest with
      | none => .error (.fault .unicodeEscape (offset + 1))
      | some high =>
        let after := rest.drop 4
        let isHigh := 0xD800 ≤ high && high < 0xDC00
        if isHigh && 6 < after.length && Text.startsWith after "\\u" then
          match fourHex? (after.drop 2) with
          | none => .error (.fault .unicodeEscape (offset + 7))
          | some low =>
            if 0xDC00 ≤ low && low < 0xE000 then .ok (unitPoint (joinSurrogates high low), 11)
            else .ok (unitPoint high, 5)
        else .ok (unitPoint high, 5)

/-- Reads a string whose opening quote is at `start`, from the code point after the quote on. -/
def readString (start offset : Nat) (t : Text) (read : Text) : Except Stop (Text × Cursor) :=
  match t with
  | [] => .error (.fault .unterminatedString start)
  | c :: rest =>
    if c.val = 0x22 then .ok (read.reverse, ⟨offset + 1, rest⟩)
    else if c.val = 0x5C then
      match readEscape start offset rest with
      | .error stop => .error stop
      | .ok (d, used) => readString start (offset + 1 + used) (rest.drop used) (d :: read)
    else if c.val < 0x20 then .error (.fault .controlCharacter offset)
    else readString start (offset + 1) rest (c :: read)
termination_by t.length
decreasing_by all_goals simp [List.length_drop]; try omega

/-- A minus, if the text begins with one, and what follows it. -/
def takeMinus (t : Text) : Bool × Text :=
  match t with
  | c :: rest => if c.val = 0x2D then (true, rest) else (false, t)
  | [] => (false, [])

/-- The digits of a number in front of its point: after a zero there are no others. -/
def wholeDigits (t : Text) : Text :=
  match t with
  | c :: _ => if c.val = 0x30 then [c] else t.takeWhile CodePoint.isDigit
  | [] => []

/-- The digits behind a point at the start of a text. -/
def partDigits (t : Text) : Text :=
  match t with
  | c :: rest => if c.val = 0x2E then rest.takeWhile CodePoint.isDigit else []
  | [] => []

/-- The power of ten at the start of a text, from its mark on. -/
def powerText (t : Text) : Text :=
  match t with
  | c :: rest =>
    if c.val = 0x65 || c.val = 0x45 then
      let sign := (rest.take 1).takeWhile fun d ↦ d.val == 0x2B || d.val == 0x2D
      let digits := (rest.drop sign.length).takeWhile CodePoint.isDigit
      if digits.isEmpty then [] else c :: (sign ++ digits)
    else []
  | [] => []

/-- Reads a number; nothing if none stands at the cursor. -/
def readNumber? (cursor : Cursor) : Option (Except Stop (Number × Cursor)) :=
  let (negative, body) := takeMinus cursor.rest
  let whole := wholeDigits body
  if whole.isEmpty then none
  else
    let after := body.drop whole.length
    let part := partDigits after
    let after := if part.isEmpty then after else after.drop (part.length + 1)
    let power := powerText after
    let used := (if negative then 1 else 0) + whole.length +
      (if part.isEmpty then 0 else part.length + 1) + power.length
    let digitsOf (t : Text) := Text.readDigits 10 (t.filterMap CodePoint.digitValue?)
    if part.isEmpty && power.isEmpty then
      if Number.digitLimit < whole.length then some (.error (.tooManyDigits whole.length))
      else
        let n : Int := digitsOf whole
        some (.ok (.int (if negative then -n else n), cursor.advance used))
    else
      let exponent := (Decimal.readPower? power).getD 0 - part.length
      some (.ok (.float (Binary64.ofDecimal negative (digitsOf (whole ++ part)) exponent),
        cursor.advance used))

/-- Reads a word or a number. -/
def readScalar (cursor : Cursor) : Except Stop (Json × Cursor) :=
  if cursor.sees "null" then .ok (.null, cursor.advance 4)
  else if cursor.sees "true" then .ok (.bool true, cursor.advance 4)
  else if cursor.sees "false" then .ok (.bool false, cursor.advance 5)
  else if cursor.sees "NaN" then .ok (.number (.float .nan), cursor.advance 3)
  else if cursor.sees "Infinity" then .ok (.number (.float (.infinite false)), cursor.advance 8)
  else if cursor.sees "-Infinity" then .ok (.number (.float (.infinite true)), cursor.advance 9)
  else
    match readNumber? cursor with
    | none => .error (.fault .value cursor.offset)
    | some (.error stop) => .error stop
    | some (.ok (n, cursor)) => .ok (.number n, cursor)

mutual

/-- Reads a value at the cursor. `depth` bounds the nesting and the count of members. -/
def readValue (depth : Nat) (cursor : Cursor) : Except Stop (Json × Cursor) :=
  match depth with
  | 0 => .error (.fault .value cursor.offset)
  | depth + 1 =>
    match cursor.rest with
    | [] => .error (.fault .value cursor.offset)
    | c :: rest =>
      if c.val = 0x22 then
        match readString cursor.offset (cursor.offset + 1) rest [] with
        | .error stop => .error stop
        | .ok (t, cursor) => .ok (.string t, cursor)
      else if c.val = 0x7B then
        let cursor := (cursor.advance 1).skipSpace
        if cursor.sees "\x7d" then .ok (.object [], cursor.advance 1)
        else readMembers depth cursor []
      else if c.val = 0x5B then
        let cursor := (cursor.advance 1).skipSpace
        if cursor.sees "]" then .ok (.array [], cursor.advance 1)
        else readItems depth cursor []
      else readScalar cursor

/-- Reads the members of an object from a key on. -/
def readMembers (depth : Nat) (cursor : Cursor) (read : List (Text × Json)) :
    Except Stop (Json × Cursor) :=
  match depth with
  | 0 => .error (.fault .value cursor.offset)
  | depth + 1 =>
    if !cursor.sees "\"" then .error (.fault .propertyName cursor.offset)
    else
      match readString cursor.offset (cursor.offset + 1) (cursor.rest.drop 1) [] with
      | .error stop => .error stop
      | .ok (key, cursor) =>
        let cursor := cursor.skipSpace
        if !cursor.sees ":" then .error (.fault .colon cursor.offset)
        else
          match readValue depth (cursor.advance 1).skipSpace with
          | .error stop => .error stop
          | .ok (value, cursor) =>
            let cursor := cursor.skipSpace
            let read := (key, value) :: read
            if cursor.sees "\x7d" then .ok (.object (Fields.ofList read.reverse), cursor.advance 1)
            else if cursor.sees "," then readMembers depth (cursor.advance 1).skipSpace read
            else .error (.fault .comma cursor.offset)

/-- Reads the items of an array from an item on. -/
def readItems (depth : Nat) (cursor : Cursor) (read : List Json) : Except Stop (Json × Cursor) :=
  match depth with
  | 0 => .error (.fault .value cursor.offset)
  | depth + 1 =>
    match readValue depth cursor with
    | .error stop => .error stop
    | .ok (value, cursor) =>
      let cursor := cursor.skipSpace
      let read := value :: read
      if cursor.sees "]" then .ok (.array read.reverse, cursor.advance 1)
      else if cursor.sees "," then readItems depth (cursor.advance 1).skipSpace read
      else .error (.fault .comma cursor.offset)

end

/-- Reads the whole of a text as one value. -/
def readAll (t : Text) : Except Stop Json :=
  match readValue (2 * t.length + 2) (Cursor.skipSpace ⟨0, t⟩) with
  | .error stop => .error stop
  | .ok (value, cursor) =>
    let cursor := cursor.skipSpace
    if cursor.rest.isEmpty then .ok value else .error (.fault .extraData cursor.offset)

/-- Reads the whole of a text as one value, unless it begins with a byte order mark. -/
def readUnmarked (t : Text) : Except Stop Json :=
  if t.head?.map (·.val) = some 0xFEFF then .error (.fault .byteOrderMark 0) else readAll t

/-- A stop with the line and the column of its offset. -/
def Stop.locate (t : Text) : Stop → ReadError
  | .tooManyDigits count => .tooManyDigits count
  | .fault cause offset =>
    let before := t.take offset
    let newline (c : CodePoint) : Bool := c.val == 0x0A
    .malformed cause offset (before.countP newline + 1)
      ((before.reverse.takeWhile fun c ↦ !newline c).length + 1)

/-- The value that a text denotes. -/
def read (t : Text) : Except ReadError Json :=
  match readUnmarked t with
  | .ok value => .ok value
  | .error stop => .error (stop.locate t)

/-- The value that a text denotes whose byte order mark has been taken off with its bytes. -/
def readDecoded (t : Text) : Except ReadError Json :=
  match readAll t with
  | .ok value => .ok value
  | .error stop => .error (stop.locate t)

end Json

end StoryCatalog
