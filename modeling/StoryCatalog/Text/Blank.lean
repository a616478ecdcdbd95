import StoryCatalog.Text.CodePoint

/-!
# Blank space

The white space of texts: the spaces of every script, line and paragraph separators, and the
control characters that separate lines and records. Stripping removes it from both ends.
-/

namespace StoryCatalog

/-- Whether a code point is white space. -/
def CodePoint.isBlank (c : CodePoint) : Bool :=
  (0x09 ≤ c.val && c.val ≤ 0x0D) || (0x1C ≤ c.val && c.val ≤ 0x20) || c.val == 0x85 ||
    c.val == 0xA0 || c.val == 0x1680 || (0x2000 ≤ c.val && c.val ≤ 0x200A) || c.val == 0x2028 ||
    c.val == 0x2029 || c.val == 0x202F || c.val == 0x205F || c.val == 0x3000

/-- The text without the white space at its ends. -/
def Text.strip (t : Text) : Text :=
  Text.dropEndWhile (t.dropWhile CodePoint.isBlank) CodePoint.isBlank

end StoryCatalog
