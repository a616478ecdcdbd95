import StoryCatalog.Text.Printable

/-!
# Quoted texts

A text in quotes that shows every code point: quotes are single unless the text holds a single
quote and no double one, and what has no printed form is written as an escape.
-/

namespace StoryCatalog

namespace CodePoint

/-- The lowest `width` hexadecimal digits of a number. -/
def hexDigits (width n : Nat) : Text :=
  (List.range width).reverse.map fun place ↦ ofHexDigit (n / Nat.pow 16 place % 16)

/-- A code point inside quotes of a kind. -/
def quoted (quote c : CodePoint) : Text :=
  if c = quote || c = ofChar '\\' then [ofChar '\\', c]
  else if c.val = 0x09 then "\\t"
  else if c.val = 0x0A then "\\n"
  else if c.val = 0x0D then "\\r"
  else if c.isPrintable then [c]
  else if c.val ≤ 0xFF then "\\x" ++ hexDigits 2 c.val
  else if c.val ≤ 0xFFFF then "\\u" ++ hexDigits 4 c.val
  else "\\U" ++ hexDigits 8 c.val

end CodePoint

/-- The text in quotes, with escapes for what cannot stand there. -/
def Text.quoted (t : Text) : Text :=
  let single := CodePoint.ofChar '\''
  let double := CodePoint.ofChar '"'
  let quote := if t.contains single && !t.contains double then double else single
  [quote] ++ t.flatMap (CodePoint.quoted quote) ++ [quote]

end StoryCatalog
