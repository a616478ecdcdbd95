import StoryCatalog.Number.Binary64
import StoryCatalog.Text.Blank
import StoryCatalog.Text.Digit

/-!
# Reading decimals

A decimal has digits with at most one point among them, and a power of ten after `e` may follow.
`Binary64.read?` reads the texts that stand for a binary64 number: a decimal or the name of an
infinity or of NaN, after a sign, with blank space around.
-/

namespace StoryCatalog

/-- An unsigned decimal: its digits without the point, and the power of ten they count. -/
structure Decimal where
  digits : Nat
  exponent : Int
  deriving DecidableEq, Repr

namespace Decimal

/-- The leading ASCII digits of a text, and what follows them. -/
def takeDigits (t : Text) : List Nat × Text :=
  ((t.takeWhile CodePoint.isDigit).filterMap CodePoint.digitValue?, t.dropWhile CodePoint.isDigit)

/-- A sign, if the text begins with one, and what follows it. The sign is true for minus. -/
def takeSign (t : Text) : Bool × Text :=
  match t with
  | [] => (false, [])
  | c :: rest =>
    if c = CodePoint.ofChar '-' then (true, rest)
    else if c = CodePoint.ofChar '+' then (false, rest)
    else (false, t)

/-- The power of ten written at the start of a text after its mark, if the text is nothing else. -/
def readPower? (t : Text) : Option Int :=
  match t with
  | [] => some 0
  | c :: rest =>
    if c = CodePoint.ofChar 'e' || c = CodePoint.ofChar 'E' then
      let (negative, rest) := takeSign rest
      let (digits, rest) := takeDigits rest
      if digits.isEmpty || !rest.isEmpty then none
      else
        let n : Int := (Text.readDigits 10 digits : Int)
        some (if negative then -n else n)
    else none

/-- The decimal that a text without a sign denotes. -/
def read? (t : Text) : Option Decimal :=
  let (whole, rest) := takeDigits t
  let (part, rest) :=
    match rest with
    | c :: after => if c = CodePoint.ofChar '.' then takeDigits after else ([], rest)
    | [] => ([], [])
  if whole.isEmpty && part.isEmpty then none
  else
    (readPower? rest).map fun power ↦
      ⟨Text.readDigits 10 (whole ++ part), power - part.length⟩

end Decimal

namespace Binary64

/-- The text with every decimal digit of another script replaced by the ASCII digit, or nothing
when the text holds another code point beyond ASCII. -/
def plainDigits? (t : Text) : Option Text :=
  t.mapM fun c ↦
    if c.val < 0x80 then some c else c.decimalValue?.map CodePoint.ofDigit

/-- The letters of a text in lower case, for comparison with a word. -/
def isWord (t : Text) (word : String) : Bool :=
  t.map (fun c ↦ if 0x41 ≤ c.val && c.val ≤ 0x5A then c.val + 0x20 else c.val) ==
    word.toList.map Char.toNat

/-- The number that a text stands for. -/
def read? (t : Text) : Option Binary64 :=
  match plainDigits? t.strip with
  | none => none
  | some t =>
    let (negative, body) := Decimal.takeSign t
    if isWord body "inf" || isWord body "infinity" then some (.infinite negative)
    else if isWord body "nan" then some .nan
    else (Decimal.read? body).map fun d ↦ ofDecimal negative d.digits d.exponent

end Binary64

end StoryCatalog
