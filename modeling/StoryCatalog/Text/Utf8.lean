import StoryCatalog.Text.Quoted

/-!
# UTF-8

Texts as bytes. A code point takes one to four bytes; the first one tells how many follow and, with
the second one's range, keeps every code point to one spelling. Surrogates have no bytes. Decoding
reports the bytes that stand for nothing, and finds the next code point behind them.
-/

namespace StoryCatalog

/-- The bytes of a file or a message. -/
abbrev Bytes := List UInt8

/-- Bytes that stand for no text: where they are and why. -/
structure DecodeFault where
  encoding : String
  start : Nat
  length : Nat
  firstByte : Nat
  reason : String
  deriving DecidableEq, Repr

namespace DecodeFault

/-- The wording of a fault. -/
def message (f : DecodeFault) : Text :=
  let place : Text :=
    if f.length = 1 then
      Text.concat ["byte 0x", CodePoint.hexDigits 2 f.firstByte, " in position ",
        Text.ofNat f.start]
    else
      Text.concat ["bytes in position ", Text.ofNat f.start, "-",
        Text.ofNat (f.start + f.length - 1)]
  Text.concat ["'", f.encoding, "' codec can't decode ", place, ": ", f.reason]

end DecodeFault

/-- Surrogates in a row, which have no bytes: the first one and where they are. -/
structure EncodeFault where
  first : CodePoint
  start : Nat
  length : Nat
  deriving DecidableEq, Repr

namespace EncodeFault

/-- The wording of a fault. -/
def message (f : EncodeFault) : Text :=
  let place : Text :=
    if f.length = 1 then
      Text.concat [" '\\u", CodePoint.hexDigits 4 f.first.val, "' in position ", Text.ofNat f.start]
    else
      Text.concat ["s in position ", Text.ofNat f.start, "-", Text.ofNat (f.start + f.length - 1)]
  Text.concat ["'utf-8' codec can't encode character", place, ": surrogates not allowed"]

/-- The first surrogates in a text. -/
def find? (t : Text) : Option EncodeFault :=
  let before := (t.takeWhile (!·.isSurrogate)).length
  let rest := t.drop before
  rest.head?.map fun c ↦ ⟨c, before, (rest.takeWhile (·.isSurrogate)).length⟩

end EncodeFault

namespace Utf8

/-- The byte with the low eight bits of a number. -/
def byte (n : Nat) : UInt8 := UInt8.ofNat n

/-- The bytes of a code point. -/
def encodeCodePoint (c : CodePoint) : Bytes :=
  let n := c.val
  if n < 0x80 then [byte n]
  else if n < 0x800 then [byte (0xC0 + n / 64), byte (0x80 + n % 64)]
  else if n < 0x10000 then
    [byte (0xE0 + n / 4096), byte (0x80 + n / 64 % 64), byte (0x80 + n % 64)]
  else
    [byte (0xF0 + n / 262144), byte (0x80 + n / 4096 % 64), byte (0x80 + n / 64 % 64),
      byte (0x80 + n % 64)]

/-- The bytes of a text, unless it holds a surrogate. -/
def encode (t : Text) : Except EncodeFault Bytes :=
  match EncodeFault.find? t with
  | some fault => .error fault
  | none => .ok (t.flatMap encodeCodePoint)

/-- Where a decoder stands: between code points, or inside one with so many bytes still owed, the
range of the next one, the value and the count of bytes so far. Inside a surrogate, of which only
the whole is accepted, any fault counts from its first byte alone. -/
inductive State where
  | between
  | inside (owed low high value seen first : Nat) (surrogate : Bool)

/-- What a first byte tells: how many bytes follow, the range of the second one, and its part of
the value. -/
def lead? (surrogates : Bool) (b : Nat) : Option (Nat × Nat × Nat × Nat) :=
  if 0xC2 ≤ b && b ≤ 0xDF then some (1, 0x80, 0xBF, b - 0xC0)
  else if 0xE0 ≤ b && b ≤ 0xEF then
    some (2, if b = 0xE0 then 0xA0 else 0x80, if b = 0xED && !surrogates then 0x9F else 0xBF,
      b - 0xE0)
  else if 0xF0 ≤ b && b ≤ 0xF4 then
    some (3, if b = 0xF0 then 0x90 else 0x80, if b = 0xF4 then 0x8F else 0xBF, b - 0xF0)
  else none

/-- The code point with a value that the ranges of the bytes keep in bounds. -/
def codePoint (value : Nat) : CodePoint := (CodePoint.ofNat? value).getD default

/-- What a decoder reports of a byte between code points, and where it stands then. -/
def begin (surrogates : Bool) (offset : Nat) (b : Nat) :
    List (Except DecodeFault CodePoint) × State :=
  if b < 0x80 then ([.ok (codePoint b)], .between)
  else
    match lead? surrogates b with
    | some (owed, low, high, value) => ([], .inside owed low high value 1 b false)
    | none => ([.error ⟨"utf-8", offset, 1, b, "invalid start byte"⟩], .between)

/-- What bytes stand for, one after another: code points, and faults where they stand for none. -/
def decodeFrom (surrogates : Bool) (offset : Nat) :
    State → Bytes → List (Except DecodeFault CodePoint)
  | .between, [] => []
  | .inside _ _ _ _ seen first surrogate, [] =>
    if surrogate then [.error ⟨"utf-8", offset - seen, 1, first, "invalid continuation byte"⟩]
    else [.error ⟨"utf-8", offset - seen, seen, first, "unexpected end of data"⟩]
  | .between, b :: rest =>
    let (reported, state) := begin surrogates offset b.toNat
    reported ++ decodeFrom surrogates (offset + 1) state rest
  | .inside owed low high value seen first surrogate, b :: rest =>
    let n := b.toNat
    if low ≤ n && n ≤ high then
      let value := value * 64 + (n - 0x80)
      if owed ≤ 1 then .ok (codePoint value) :: decodeFrom surrogates (offset + 1) .between rest
      else
        let isSurrogate := surrogate || (first = 0xED && seen = 1 && 0xA0 ≤ n)
        decodeFrom surrogates (offset + 1)
          (.inside (owed - 1) 0x80 0xBF value (seen + 1) first isSurrogate) rest
    else
      let length := if surrogate then 1 else seen
      let (reported, state) := begin surrogates offset n
      .error ⟨"utf-8", offset - seen, length, first, "invalid continuation byte"⟩ ::
        (reported ++ decodeFrom surrogates (offset + 1) state rest)

/-- The text of bytes that all stand for something. -/
def decode (bytes : Bytes) : Except DecodeFault Text := (decodeFrom false 0 .between bytes).mapM id

/-- The text of bytes that all stand for something, where surrogates have bytes too. -/
def decodeWithSurrogates (bytes : Bytes) : Except DecodeFault Text :=
  (decodeFrom true 0 .between bytes).mapM id

/-- The text of bytes, with the replacement character for those that stand for nothing. -/
def decodeReplacing (bytes : Bytes) : Text :=
  (decodeFrom false 0 .between bytes).map fun
    | .ok c => c
    | .error _ => ⟨0xFFFD, by decide⟩

/-- The text with line feeds for carriage returns, and none for a line feed behind one. -/
def unifyAfter (isAfterReturn : Bool) : Text → Text
  | [] => []
  | c :: rest =>
    if c.val = 0x0D then CodePoint.ofChar '\n' :: unifyAfter true rest
    else if isAfterReturn && c.val = 0x0A then unifyAfter false rest
    else c :: unifyAfter false rest

/-- The text with a line feed for every line break. -/
def unifyLineBreaks (t : Text) : Text := unifyAfter false t

end Utf8

end StoryCatalog
