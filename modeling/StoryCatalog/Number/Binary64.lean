/-!
# Binary64 numbers

Floating-point numbers of 64 bits as exact data: a finite one is `± mantissa · 2 ^ exponent` with
the mantissa below `2 ^ 53`. Every operation takes the exact rational result and rounds it once, to
the nearest number and to the even mantissa in a tie.
-/

namespace StoryCatalog

/-- A binary64 number. A mantissa of 53 bits, or the least exponent `-1074` with a smaller
mantissa, makes the form of a finite number unique. -/
inductive Binary64 where
  | finite (negative : Bool) (mantissa : Nat) (exponent : Int)
  | infinite (negative : Bool)
  | nan
  deriving DecidableEq, Repr, Inhabited

namespace Binary64

/-- The exponent of the least positive number. -/
def leastExponent : Int := -1074

/-- The exponent of the greatest finite numbers. -/
def greatestExponent : Int := 971

/-- Zero with a sign. -/
def signedZero (negative : Bool) : Binary64 := .finite negative 0 leastExponent

/-- The quotient rounded to the nearest whole number, to the even one in a tie. -/
def roundQuotient (num den : Nat) : Nat :=
  let quotient := num / den
  let rest := num % den
  if 2 * rest < den then quotient
  else if den < 2 * rest then quotient + 1
  else if quotient % 2 = 0 then quotient
  else quotient + 1

/-- The quotient `num / den` in units of `2 ^ exponent`, rounded. -/
def inUnits (num den : Nat) (exponent : Int) : Nat :=
  if exponent < 0 then roundQuotient (num * Nat.pow 2 (-exponent).toNat) den
  else roundQuotient num (den * Nat.pow 2 exponent.toNat)

/-- The exponent `k` with `2 ^ k ≤ num / den < 2 ^ (k + 1)`, for positive numbers. -/
def binaryExponent (num den : Nat) : Int :=
  let k : Int := (num.log2 : Int) - (den.log2 : Int)
  let reaches : Bool :=
    if k < 0 then den ≤ num * Nat.pow 2 (-k).toNat else den * Nat.pow 2 k.toNat ≤ num
  if reaches then k else k - 1

/-- The number nearest to `± num / den`. -/
def ofQuotient (negative : Bool) (num den : Nat) : Binary64 :=
  if num = 0 ∨ den = 0 then signedZero negative
  else
    let exponent := max (binaryExponent num den - 52) leastExponent
    let mantissa := inUnits num den exponent
    if mantissa < Nat.pow 2 53 then
      if exponent ≤ greatestExponent then .finite negative mantissa exponent
      else .infinite negative
    else if exponent < greatestExponent then .finite negative (Nat.pow 2 52) (exponent + 1)
    else .infinite negative

/-- The number nearest to a rational; `zeroSign` tells the sign of a zero. -/
def ofRat (zeroSign : Bool) (r : Rat) : Binary64 :=
  if r.num = 0 then signedZero zeroSign else ofQuotient (r.num < 0) r.num.natAbs r.den

/-- The number nearest to an integer. -/
def ofInt (n : Int) : Binary64 := ofQuotient (n < 0) n.natAbs 1

/-- The number nearest to `± digits · 10 ^ exponent`. Powers far beyond the range are not
computed. -/
def ofDecimal (negative : Bool) (digits : Nat) (exponent : Int) : Binary64 :=
  if digits = 0 then signedZero negative
  else
    let magnitude : Int := (digits.log2 : Int) * 30103 / 100000 + exponent
    if 320 < magnitude then .infinite negative
    else if magnitude < -400 then signedZero negative
    else if exponent < 0 then ofQuotient negative digits (Nat.pow 10 (-exponent).toNat)
    else ofQuotient negative (digits * Nat.pow 10 exponent.toNat) 1

/-- The rational with the value of a finite number. -/
def toRat? : Binary64 → Option Rat
  | .finite negative mantissa exponent =>
    let size : Rat :=
      if exponent < 0 then mkRat mantissa (Nat.pow 2 (-exponent).toNat)
      else ((mantissa * Nat.pow 2 exponent.toNat : Nat) : Rat)
    some (if negative then -size else size)
  | _ => none

/-- The integer with the value of a number, if it is whole. -/
def toInt? (x : Binary64) : Option Int :=
  match x.toRat? with
  | some r => if r.den = 1 then some r.num else none
  | none => none

/-- Whether the sign bit is set. -/
def isNegative : Binary64 → Bool
  | .finite negative _ _ => negative
  | .infinite negative => negative
  | .nan => false

/-- Whether a number is a zero of either sign. -/
def isZero : Binary64 → Bool
  | .finite _ mantissa _ => mantissa == 0
  | _ => false

/-- The number with the opposite sign. -/
def neg : Binary64 → Binary64
  | .finite negative mantissa exponent => .finite (!negative) mantissa exponent
  | .infinite negative => .infinite (!negative)
  | .nan => .nan

/-- The rounded sum. Opposite infinities have none, and a sum of zeros is negative only if both
are. -/
def add : Binary64 → Binary64 → Binary64
  | .nan, _ => .nan
  | _, .nan => .nan
  | .infinite a, .infinite b => if a == b then .infinite a else .nan
  | .infinite a, .finite .. => .infinite a
  | .finite .., .infinite b => .infinite b
  | x@(.finite a _ _), y@(.finite b _ _) =>
    ofRat (a && b) (x.toRat?.getD 0 + y.toRat?.getD 0)

/-- The rounded difference. -/
def sub (x y : Binary64) : Binary64 := x.add y.neg

/-- The rounded product. -/
def mul : Binary64 → Binary64 → Binary64
  | .nan, _ => .nan
  | _, .nan => .nan
  | .infinite a, y => if y.isZero then .nan else .infinite (a != y.isNegative)
  | x@(.finite ..), .infinite b => if x.isZero then .nan else .infinite (x.isNegative != b)
  | x@(.finite a _ _), y@(.finite b _ _) =>
    ofRat (a != b) (x.toRat?.getD 0 * y.toRat?.getD 0)

/-- Whether one number is below another; no number compares with NaN. -/
def lt : Binary64 → Binary64 → Bool
  | .nan, _ => false
  | _, .nan => false
  | .infinite a, .infinite b => a && !b
  | .infinite a, .finite .. => a
  | .finite .., .infinite b => !b
  | x@(.finite ..), y@(.finite ..) => decide (x.toRat?.getD 0 < y.toRat?.getD 0)

/-- Whether two numbers have one value; zeros of either sign do, NaN does not. -/
def sameValue : Binary64 → Binary64 → Bool
  | .nan, _ => false
  | _, .nan => false
  | .infinite a, .infinite b => a == b
  | x@(.finite ..), y@(.finite ..) => decide (x.toRat?.getD 0 = y.toRat?.getD 0)
  | _, _ => false

/-- The number rounded to decimal places, a half to the even digit. -/
def roundPlaces (places : Nat) (x : Binary64) : Binary64 :=
  match x.toRat? with
  | some r =>
    ofDecimal x.isNegative (roundQuotient (r.num.natAbs * Nat.pow 10 places) r.den) (-places)
  | none => x

end Binary64

end StoryCatalog
