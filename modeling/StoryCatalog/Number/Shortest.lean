import StoryCatalog.Number.Binary64
import StoryCatalog.Text.CodePoint

/-!
# Shortest decimal texts

The text of a binary64 number is written with the fewest digits that read back as the number, the
nearest such digits when there are several. `Binary64.digits` finds them by trying each length on
the decimal grid around the value; should every length up to seventeen fail, the exact decimal
expansion is taken, so that what is written always reads back.
-/

namespace StoryCatalog

/-- How a decimal is laid out. Positional notation is kept while the first digit's power of ten
lies in the given bounds. -/
structure DecimalLayout where
  leastPositional : Int
  greatestPositional : Int
  exponentWidth : Nat

namespace Binary64

/-- The count of decimal digits of a natural number. -/
def digitCount (n : Nat) : Nat := (Nat.toDigits 10 n).length

/-- The decimal exponent `k` with `10 ^ k ≤ num / den < 10 ^ (k + 1)`, for positive numbers. -/
def decimalExponent (num den : Nat) : Int :=
  let k : Int := (digitCount num : Int) - (digitCount den : Int)
  let reaches : Bool :=
    if k < 0 then den ≤ num * Nat.pow 10 (-k).toNat else den * Nat.pow 10 k.toNat ≤ num
  if reaches then k else k - 1

/-- The two grid points around `num / den` on the grid of step `10 ^ exponent`, nearest first; of
two equally near the even one is first. -/
def neighbours (num den : Nat) (exponent : Int) : List Nat :=
  let scaled : Nat × Nat :=
    if exponent < 0 then (num * Nat.pow 10 (-exponent).toNat, den)
    else (num, den * Nat.pow 10 exponent.toNat)
  let below := scaled.1 / scaled.2
  let rest := scaled.1 % scaled.2
  if 2 * rest < scaled.2 || (2 * rest == scaled.2 && below % 2 == 0) then [below, below + 1]
  else [below + 1, below]

/-- The first decimal that reads back as `x` among those with `count` to `count + fuel` digits. -/
def findDigits (x : Binary64) (num den : Nat) (top : Int) : (fuel count : Nat) → Option (Nat × Int)
  | 0, _ => none
  | fuel + 1, count =>
    let exponent := top - (count : Int) + 1
    match (neighbours num den exponent).find? fun digits ↦ ofDecimal false digits exponent == x with
    | some digits => some (digits, exponent)
    | none => findDigits x num den top fuel (count + 1)

/-- Digits and a power of ten without zeros at the end of the digits. -/
def dropZeros : (fuel digits : Nat) → Int → Nat × Int
  | 0, digits, exponent => (digits, exponent)
  | fuel + 1, digits, exponent =>
    if digits ≠ 0 ∧ digits % 10 = 0 then dropZeros fuel (digits / 10) (exponent + 1)
    else (digits, exponent)

/-- The shortest decimal `digits · 10 ^ exponent` that reads back as the positive number
`mantissa · 2 ^ exponent`. -/
def digits (mantissa : Nat) (exponent : Int) : Nat × Int :=
  let num := if exponent < 0 then mantissa else mantissa * Nat.pow 2 exponent.toNat
  let den := if exponent < 0 then Nat.pow 2 (-exponent).toNat else 1
  let found := findDigits (.finite false mantissa exponent) num den (decimalExponent num den) 17 1
  match found with
  | some (found, power) => dropZeros 20 found power
  | none =>
    if exponent < 0 then (mantissa * Nat.pow 5 (-exponent).toNat, exponent) else (num, 0)

/-- The text of an exponent: a sign and at least `width` digits. -/
def exponentText (width : Nat) (n : Int) : Text :=
  let body := Text.ofNat n.natAbs
  CodePoint.ofChar (if n < 0 then '-' else '+') ::
    (List.replicate (width - body.length) (CodePoint.ofChar '0') ++ body)

/-- The text of `digits · 10 ^ exponent`. -/
def decimalText (layout : DecimalLayout) (digits : Nat) (exponent : Int) : Text :=
  let body := Text.ofNat digits
  let zero := CodePoint.ofChar '0'
  let point := CodePoint.ofChar '.'
  let top : Int := exponent + (body.length : Int) - 1
  if layout.leastPositional ≤ top ∧ top ≤ layout.greatestPositional then
    if top < 0 then
      zero :: point :: (List.replicate (-top - 1).toNat zero ++ body)
    else if 0 ≤ exponent then
      body ++ List.replicate exponent.toNat zero ++ [point, zero]
    else
      body.take (top.toNat + 1) ++ point :: body.drop (top.toNat + 1)
  else
    body.take 1 ++ (if body.length ≤ 1 then [] else point :: body.drop 1) ++
      CodePoint.ofChar 'e' :: exponentText layout.exponentWidth top

/-- Numbers from a ten-thousandth up to ten to the sixteenth are written positionally. -/
def layout : DecimalLayout := ⟨-4, 15, 2⟩

/-- The text of a number, with the given words for the values that have no digits. -/
def textWith (infinity nan : Text) : Binary64 → Text
  | .finite negative mantissa exponent =>
    let body :=
      if mantissa = 0 then Text.ofString "0.0"
      else
        let decimal := digits mantissa exponent
        decimalText layout decimal.1 decimal.2
    if negative then CodePoint.ofChar '-' :: body else body
  | .infinite negative => if negative then CodePoint.ofChar '-' :: infinity else infinity
  | .nan => nan

/-- The plain text of a number. -/
def text (x : Binary64) : Text := textWith "inf" "nan" x

end Binary64

end StoryCatalog
