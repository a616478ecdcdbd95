import StoryCatalog.Text.Utf8

/-!
# Encodings of JSON documents

A JSON document that comes as bytes tells its encoding by a byte order mark or by the zero bytes
among its first four. Surrogates stand for themselves in all encodings.
-/

namespace StoryCatalog

/-- The encodings of documents. -/
inductive Encoding where
  | utf8
  | utf16 (bigEndian : Bool)
  | utf32 (bigEndian : Bool)
  deriving DecidableEq, Repr

namespace Encoding

/-- The encoding of a document, and the length of its byte order mark. -/
def detect (bytes : Bytes) : Encoding × Nat :=
  match bytes.map UInt8.toNat with
  | 0x00 :: 0x00 :: 0xFE :: 0xFF :: _ => (.utf32 true, 4)
  | 0xFF :: 0xFE :: 0x00 :: 0x00 :: _ => (.utf32 false, 4)
  | 0xFE :: 0xFF :: _ => (.utf16 true, 2)
  | 0xFF :: 0xFE :: _ => (.utf16 false, 2)
  | 0xEF :: 0xBB :: 0xBF :: _ => (.utf8, 3)
  | a :: b :: c :: d :: _ =>
    if a = 0 then (if b = 0 then .utf32 true else .utf16 true, 0)
    else if b = 0 then (if c = 0 && d = 0 then .utf32 false else .utf16 false, 0)
    else (.utf8, 0)
  | [a, b] =>
    (if a = 0 then .utf16 true else if b = 0 then .utf16 false else .utf8, 0)
  | _ => (.utf8, 0)

/-- The units of two bytes, and a last byte that is left over. -/
def units16 (bigEndian : Bool) : Bytes → List Nat × Option UInt8
  | a :: b :: rest =>
    let (units, left) := units16 bigEndian rest
    let unit := if bigEndian then a.toNat * 256 + b.toNat else b.toNat * 256 + a.toNat
    (unit :: units, left)
  | [a] => ([], some a)
  | [] => ([], none)

/-- The code points of units of 16 bits: two surrogates that belong together are one. -/
def joinPairs : List Nat → Text
  | high :: low :: rest =>
    if 0xD800 ≤ high && high < 0xDC00 && 0xDC00 ≤ low && low < 0xE000 then
      (CodePoint.ofNat? (0x10000 + (high - 0xD800) * 1024 + (low - 0xDC00))).toList ++
        joinPairs rest
    else (CodePoint.ofNat? high).toList ++ joinPairs (low :: rest)
  | [unit] => (CodePoint.ofNat? unit).toList
  | [] => []

/-- The text of bytes in units of two; `offset` bytes come before them. -/
def decode16 (bigEndian : Bool) (offset : Nat) (bytes : Bytes) : Except DecodeFault Text :=
  let (units, left) := units16 bigEndian bytes
  match left with
  | some b =>
    .error ⟨if bigEndian then "utf-16-be" else "utf-16-le", offset + bytes.length - 1, 1, b.toNat,
      "truncated data"⟩
  | none => .ok (joinPairs units)

/-- The text of bytes in units of four; `offset` bytes come before them. -/
def decode32 (bigEndian : Bool) (offset : Nat) : Bytes → Except DecodeFault Text
  | a :: b :: c :: d :: rest =>
    let value :=
      if bigEndian then ((a.toNat * 256 + b.toNat) * 256 + c.toNat) * 256 + d.toNat
      else ((d.toNat * 256 + c.toNat) * 256 + b.toNat) * 256 + a.toNat
    match CodePoint.ofNat? value with
    | some point => (decode32 bigEndian (offset + 4) rest).map (point :: ·)
    | none => .error ⟨name, offset, 4, a.toNat, "code point not in range(0x110000)"⟩
  | [] => .ok []
  | a :: rest => .error ⟨name, offset, rest.length + 1, a.toNat, "truncated data"⟩
where
  name : String := if bigEndian then "utf-32-be" else "utf-32-le"

/-- The text of a JSON document. -/
def decodeDocument (bytes : Bytes) : Except DecodeFault Text :=
  let (encoding, mark) := detect bytes
  let body := bytes.drop mark
  match encoding with
  | .utf8 => Utf8.decodeWithSurrogates body
  | .utf16 bigEndian => decode16 bigEndian mark body
  | .utf32 bigEndian => decode32 bigEndian mark body

end Encoding

end StoryCatalog
