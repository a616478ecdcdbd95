import StoryCatalog.Json.Basic
import StoryCatalog.Number.Decimal

/-!
# Lenient scalars

Integers, numbers and truth values as settings and documents spell them: also as texts, and each
also as another kind of scalar with the same value. A fault says what is wrong with a value.
-/

namespace StoryCatalog

/-- What is wrong with a value. -/
inductive Fault where
  | stringType | pathType | objectType | recordType
  | intType | intParsing | intParsingSize | intFromFloat | finiteNumber
  | floatType | floatParsing | boolType | boolParsing
  | greaterThan | greaterThanEqual | lessThanEqual
  | valueError
  deriving DecidableEq, Repr

namespace Fault

/-- The code of a fault. -/
def code : Fault → Text
  | .stringType => "string_type"
  | .pathType => "path_type"
  | .objectType => "dict_type"
  | .recordType => "model_type"
  | .intType => "int_type"
  | .intParsing => "int_parsing"
  | .intParsingSize => "int_parsing_size"
  | .intFromFloat => "int_from_float"
  | .finiteNumber => "finite_number"
  | .floatType => "float_type"
  | .floatParsing => "float_parsing"
  | .boolType => "bool_type"
  | .boolParsing => "bool_parsing"
  | .greaterThan => "greater_than"
  | .greaterThanEqual => "greater_than_equal"
  | .lessThanEqual => "less_than_equal"
  | .valueError => "value_error"

end Fault

namespace Scalar

private def underscore : CodePoint := CodePoint.ofChar '_'
private def zero : CodePoint := CodePoint.ofChar '0'
private def point : CodePoint := CodePoint.ofChar '.'

/-- Whether a code point is white space and no separator of records. -/
def isSpace (c : CodePoint) : Bool := c.isBlank && !(0x1C ≤ c.val && c.val ≤ 0x1F)

/-- The text without the space around it. -/
def trim (t : Text) : Text := Text.dropEndWhile (t.dropWhile isSpace) isSpace

/-- The integer that a text denotes: digits without a leading zero, possibly after a minus. -/
def plainInt? (t : Text) : Option Int :=
  let (negative, digits) :=
    match t with
    | c :: rest => if c = CodePoint.ofChar '-' then (true, rest) else (false, t)
    | [] => (false, [])
  let values := digits.filterMap CodePoint.digitValue?
  if digits.isEmpty || values.length < digits.length then none
  else if digits.head? = some zero && 1 < digits.length then none
  else
    let n : Int := (Text.readDigits 10 values : Int)
    some (if negative then -n else n)

/-- Whether the underscores of a text stand one by one and inside. -/
def hasInnerUnderscores (t : Text) : Bool :=
  t.contains underscore && t.head? != some underscore && t.getLast? != some underscore &&
    !Text.holds t "__"

/-- The text without its underscores, if they stand one by one and inside. -/
def dropUnderscores? (t : Text) : Option Text :=
  if hasInnerUnderscores t then some (t.filter (· != underscore)) else none

/-- What follows a leading zero: further zeros, with single underscores among them, are dropped, and
one zero stays where no other digit follows. -/
def afterZero : Text → Option Text
  | [] => some [zero]
  | c :: rest =>
    if c = zero then afterZero rest
    else if c = underscore then
      match rest with
      | [] => none
      | d :: _ => if d.isDigit then afterZero rest else none
    else if c.isDigit then some (c :: rest)
    else if c = point then some (zero :: c :: rest)
    else none

/-- The text without needless zeros in front; nothing if it does not begin like a number. -/
def dropLeadingZeros (t : Text) : Option Text :=
  match t with
  | [] => none
  | c :: rest =>
    if c = zero then afterZero rest
    else if c.isDigit || c = CodePoint.ofChar '-' then some t
    else none

/-- The text without a fraction of zeros. -/
def dropZeroFraction (t : Text) : Text :=
  let whole := t.takeWhile (· != point)
  if ((t.dropWhile (· != point)).drop 1).all (· == zero) then whole else t

/-- The integer that a text denotes with a plus, leading zeros, a fraction of zeros or single
underscores inside. -/
def lenientInt? (t : Text) : Option Int := do
  let t := trim t
  let t ←
    match t with
    | c :: rest =>
      if c = CodePoint.ofChar '+' then
        if rest.head? = some (CodePoint.ofChar '-') then none else some rest
      else some t
    | [] => none
  let t := dropZeroFraction (← dropLeadingZeros t)
  plainInt? ((dropUnderscores? t).getD t)

/-- The integer of a text. -/
def intOfText (t : Text) : Except Fault Int :=
  match plainInt? t with
  | some n => if Number.fitsLimit n then .ok n else .error .intParsingSize
  | none =>
    match lenientInt? t with
    | some n => .ok n
    | none => .error .intParsing

/-- The integer of a binary64 number that is whole and fits 64 bits. -/
def intOfFloat (x : Binary64) : Except Fault Int :=
  match x with
  | .finite .. =>
    match x.toInt? with
    | some n => if n.natAbs < Nat.pow 2 63 then .ok n else .error .intParsingSize
    | none => .error .intFromFloat
  | _ => .error .finiteNumber

/-- The integer that a value stands for. -/
def int : Json → Except Fault Int
  | .bool b => .ok (if b then 1 else 0)
  | .number (.int n) => .ok n
  | .number (.float x) => intOfFloat x
  | .string t => intOfText t
  | _ => .error .intType

/-- The binary64 number that a text of ASCII digits denotes, or the name of an infinity or NaN. -/
def plainFloat? (t : Text) : Option Binary64 :=
  let (negative, body) := Decimal.takeSign t
  if Binary64.isWord body "inf" || Binary64.isWord body "infinity" then some (.infinite negative)
  else if Binary64.isWord body "nan" then some .nan
  else (Decimal.read? body).map fun d ↦ .ofDecimal negative d.digits d.exponent

/-- The binary64 number of a text. -/
def floatOfText (t : Text) : Except Fault Binary64 :=
  match (plainFloat? (trim t)).or ((dropUnderscores? t).bind plainFloat?) with
  | some x => .ok x
  | none => .error .floatParsing

/-- The binary64 number that a value stands for. -/
def float : Json → Except Fault Binary64
  | .bool b => .ok (.ofInt (if b then 1 else 0))
  | .number (.float x) => .ok x
  | .number (.int n) =>
    match Binary64.ofInt n with
    | .finite negative mantissa exponent => .ok (.finite negative mantissa exponent)
    | _ => .error .floatType
  | .string t => floatOfText t
  | _ => .error .floatType

/-- The words for true. -/
def trueWords : List String := ["1", "on", "t", "true", "y", "yes"]

/-- The words for false. -/
def falseWords : List String := ["0", "off", "f", "false", "n", "no"]

/-- The truth value of a text. -/
def boolOfText (t : Text) : Except Fault Bool :=
  if trueWords.any (Binary64.isWord t) then .ok true
  else if falseWords.any (Binary64.isWord t) then .ok false
  else .error .boolParsing

/-- The truth value of an integer. -/
def boolOfInt (n : Int) : Except Fault Bool :=
  if n = 0 then .ok false else if n = 1 then .ok true else .error .boolParsing

/-- The truth value that a value stands for. -/
def bool : Json → Except Fault Bool
  | .bool b => .ok b
  | .string t => boolOfText t
  | .number (.int n) =>
    if -(Nat.pow 2 63 : Int) ≤ n && n < (Nat.pow 2 63 : Int) then boolOfInt n else .error .boolType
  | .number (.float x) =>
    match intOfFloat x with
    | .ok n => boolOfInt n
    | .error _ => .error .boolType
  | _ => .error .boolType

/-- The text that a value is. -/
def string : Json → Except Fault Text
  | .string t => .ok t
  | _ => .error .stringType

end Scalar

end StoryCatalog
