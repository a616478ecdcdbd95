import StoryCatalog.Literal.Escape
import StoryCatalog.Number.Basic
import StoryCatalog.Number.Decimal
import StoryCatalog.Text.Case

/-!
# Numeric literals

The numbers that numeric literals denote: integers exactly, in the bases ten, sixteen, eight and
two, and everything else as the nearest binary64 number. Underscores between digits and the suffix
of big integers carry no value.
-/

namespace StoryCatalog.Numeral

/-- The base that the mark behind a leading zero names. -/
def base? (t : Text) : Option Nat :=
  match t with
  | zero :: mark :: _ =>
    if zero.val ≠ 0x30 then none
    else if mark.val = 0x78 then some 16
    else if mark.val = 0x6F then some 8
    else if mark.val = 0x62 then some 2
    else none
  | _ => none

/-- The value of a digit in a base. -/
def digitIn? (base : Nat) (c : CodePoint) : Option Nat :=
  c.hexValue?.bind fun digit ↦ if digit < base then some digit else none

/-- The natural number that digits of a base denote; blank space may follow them. -/
def natIn? (base : Nat) (t : Text) : Option Nat :=
  match Binary64.plainDigits? t.strip with
  | none => none
  | some digits =>
    if digits.isEmpty then none
    else (digits.mapM (digitIn? base)).map (Text.readDigits base)

/-- The number that the spelling of a numeric literal denotes. -/
def read? (spelling : Text) : Option Number :=
  let cleaned := Text.dropEndWhile (spelling.filter fun c ↦ c.val != 0x5F) fun c ↦ c.val == 0x6E
  let lowered := Text.lower cleaned
  match base? lowered with
  | some base => (natIn? base (lowered.drop 2)).map fun n ↦ .int n
  | none =>
    if !cleaned.isEmpty && cleaned.all CodePoint.isDigit then
      if cleaned.length ≤ Number.digitLimit then
        some (.int (Text.readDigits 10 (cleaned.filterMap CodePoint.digitValue?)))
      else none
    else (Binary64.read? cleaned).map .float

/-- The key that a number is as the name of a member: a whole number is written without a
fraction. -/
def key (n : Number) : Except LiteralError Text :=
  let number :=
    match n with
    | .float x =>
      match x.toInt? with
      | some whole => Number.int whole
      | none => n
    | .int _ => n
  match number.text? with
  | some t => .ok t
  | none => .error .tooManyDigits

end StoryCatalog.Numeral
