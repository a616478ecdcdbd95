import StoryCatalog.Number.Basic
import StoryCatalog.Script.Tree

/-!
# Escape sequences

Decoding of the escape sequences of quoted literals and templates. A quoted literal comes as
fragments and escape tokens; the body of a template is scanned for sequences, each decoded once
and from left to right. Escapes by number denote the code point with that number, so a pair of
surrogates stays two code points.
-/

namespace StoryCatalog

/-- Why a literal has no value. -/
inductive LiteralError where
  /-- An escape names a number beyond the last code point. -/
  | codePointOutOfRange
  /-- An escape names a number beyond every machine integer. -/
  | codePointTooLarge
  /-- A numeric key has more digits than are written. -/
  | tooManyDigits
  deriving DecidableEq, Repr

/-- The wording of the reason. -/
def LiteralError.message : LiteralError → Text
  | .codePointOutOfRange => "chr() arg not in range(0x110000)"
  | .codePointTooLarge => "Python int too large to convert to C int"
  | .tooManyDigits => TooManyDigits.tooManyDigits.message

namespace Escape

/-- The code point with a number. -/
def pointOf (n : Nat) : Except LiteralError CodePoint :=
  match CodePoint.ofNat? n with
  | some c => .ok c
  | none => .error (if n < Nat.pow 2 31 then .codePointOutOfRange else .codePointTooLarge)

/-- The number that hexadecimal digits denote. -/
def hexNumber (digits : Text) : Nat := Text.readDigits 16 (digits.filterMap CodePoint.hexValue?)

/-- The length of the sequence by number at the start of a text, its digits, or nothing if none
stands there. The text begins behind the backslash. -/
def numbered? (t : Text) : Option (Nat × Text) :=
  match t with
  | [] => none
  | c :: rest =>
    if c.val = 0x75 then
      let inBraces :=
        match rest with
        | d :: body =>
          if d.val = 0x7B then
            let digits := body.takeWhile CodePoint.isHexDigit
            match body.drop digits.length with
            | e :: _ =>
              if e.val = 0x7D && !digits.isEmpty then some (digits.length + 3, digits) else none
            | [] => none
          else none
        | [] => none
      inBraces <|>
        (let digits := (rest.take 4).takeWhile CodePoint.isHexDigit
        if digits.length = 4 then some (5, digits) else none)
    else if c.val = 0x78 then
      let digits := (rest.take 2).takeWhile CodePoint.isHexDigit
      if digits.length = 2 then some (3, digits) else none
    else none

/-- What a single letter behind a backslash stands for. -/
def letter (c : CodePoint) : CodePoint :=
  if c = CodePoint.ofChar 'n' then CodePoint.ofChar '\n'
  else if c = CodePoint.ofChar 't' then CodePoint.ofChar '\t'
  else if c = CodePoint.ofChar 'r' then CodePoint.ofChar '\r'
  else if c = CodePoint.ofChar 'b' then CodePoint.ofChar '\x08'
  else if c = CodePoint.ofChar 'f' then CodePoint.ofChar '\x0c'
  else if c = CodePoint.ofChar 'v' then CodePoint.ofChar '\x0b'
  else if c = CodePoint.ofChar '0' then CodePoint.ofChar '\x00'
  else c

/-- The text that one escape token denotes. A line break behind the backslash denotes nothing; a
token that is no escape denotes itself. -/
def decode (token : Text) : Except LiteralError Text :=
  match token with
  | backslash :: body@(c :: _) =>
    if backslash = CodePoint.ofChar '\\' then
      match numbered? body with
      | some (length, digits) =>
        if length = body.length then (pointOf (hexNumber digits)).map ([·])
        else if c.val = 0x0A || c.val = 0x0D then .ok []
        else .ok [letter c]
      | none => if c.val = 0x0A || c.val = 0x0D then .ok [] else .ok [letter c]
    else .ok token
  | _ => .ok token

/-- The length of the escape sequence behind a backslash in the body of a template. -/
def lengthInTemplate (t : Text) : Nat :=
  match numbered? t with
  | some (length, _) => length
  | none =>
    match t with
    | c :: d :: _ => if c.val = 0x0D && d.val = 0x0A then 2 else 1
    | _ => 1

/-- The text that the body of a template denotes. -/
def decodeTemplate (body : Text) : Except LiteralError Text :=
  match body with
  | [] => .ok []
  | c :: rest =>
    if c = CodePoint.ofChar '\\' && !rest.isEmpty then do
      let length := lengthInTemplate rest
      let first ← decode (c :: rest.take length)
      return first ++ (← decodeTemplate (rest.drop length))
    else return c :: (← decodeTemplate rest)
termination_by body.length
decreasing_by all_goals simp [List.length_drop]; try omega

/-- The text that the pieces of a quoted literal denote. -/
def decodePieces : List Script.Piece → Except LiteralError Text
  | [] => .ok []
  | .fragment text :: rest => return text ++ (← decodePieces rest)
  | .escape token :: rest => do
    let first ← decode token
    return first ++ (← decodePieces rest)

end Escape

end StoryCatalog
