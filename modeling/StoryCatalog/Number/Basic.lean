import StoryCatalog.Number.Shortest

/-!
# Numbers

A number is an integer of any size or a binary64 number. Integers are written with all their
digits, but only up to a fixed count: beyond it there is no text.
-/

namespace StoryCatalog

/-- An integer or a binary64 number. -/
inductive Number where
  | int (n : Int)
  | float (x : Binary64)
  deriving DecidableEq, Repr, Inhabited

namespace Number

/-- Integers with more decimal digits than this are neither read nor written in decimal. -/
def digitLimit : Nat := 4300

/-- Whether an integer has at most `digitLimit` decimal digits. -/
def fitsLimit (n : Int) : Bool := n.natAbs < Nat.pow 10 digitLimit

/-- The decimal text of an integer within the limit. -/
def intText? (n : Int) : Option Text := if fitsLimit n then some (Text.ofInt n) else none

/-- The text of a number: every digit of an integer, the shortest decimal of a binary64 number. -/
def text? : Number → Option Text
  | .int n => intText? n
  | .float x => some x.text

/-- Whether a number is zero. -/
def isZero : Number → Bool
  | .int n => n == 0
  | .float x => x.isZero

/-- The number with the opposite sign. -/
def neg : Number → Number
  | .int n => .int (-n)
  | .float x => .float x.neg

/-- The binary64 number nearest to a number. -/
def toBinary64 : Number → Binary64
  | .int n => .ofInt n
  | .float x => x

end Number

/-- An integer has more decimal digits than are written. -/
inductive TooManyDigits where
  | tooManyDigits
  deriving DecidableEq, Repr

/-- The wording of the failure. -/
def TooManyDigits.message (_ : TooManyDigits) : Text :=
  Text.concat ["Exceeds the limit (", Text.ofNat Number.digitLimit,
    " digits) for integer string conversion; ",
    "use sys.set_int_max_str_digits() to increase the limit"]

end StoryCatalog
