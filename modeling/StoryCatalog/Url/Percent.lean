import StoryCatalog.Text.Utf8

/-!
# Percent encoding

Code points that may not stand in a part of a URL are written as a percent sign and two hexadecimal
digits for each of their bytes. Main statement: a text whose code points may all stand as they are
is left alone (`percentEncoded_of_forall`).
-/

namespace StoryCatalog

namespace CodePoint

/-- Whether a code point stands for itself in every part of a URL. -/
def isUnreserved (c : CodePoint) : Bool :=
  c.isDigit || c.isLowerAscii || (0x41 ≤ c.val && c.val ≤ 0x5A) || Text.holds "-._~" [c]

/-- A byte as a percent sign and two digits. -/
def percentByte (b : UInt8) : Text :=
  [ofChar '%', ofHexUpper (b.toNat / 16), ofHexUpper (b.toNat % 16)]
where
  /-- The upper-case digit of a number below 16. -/
  ofHexUpper (n : Nat) : CodePoint := if n < 10 then ofDigit n else (ofNat? (0x37 + n)).getD default

end CodePoint

namespace Text

/-- The text with the code points outside a class encoded. -/
def percentEncoded (keep : CodePoint → Bool) (t : Text) : Text :=
  t.flatMap fun c ↦
    if keep c then [c] else (Utf8.encodeCodePoint c).flatMap CodePoint.percentByte

/-- Whether a text begins with an encoded byte. -/
def startsEncoded : Text → Bool
  | p :: a :: b :: _ => p == CodePoint.ofChar '%' && a.isHexDigit && b.isHexDigit
  | _ => false

/-- The text with the code points outside a class encoded, and with encoded bytes left as they
are. The count tells how many code points still belong to an encoded byte. -/
def percentCompletedFrom (keep : CodePoint → Bool) (count : Nat) : Text → Text
  | [] => []
  | c :: rest =>
    match count with
    | n + 1 => c :: percentCompletedFrom keep n rest
    | 0 =>
      if startsEncoded (c :: rest) then c :: percentCompletedFrom keep 2 rest
      else percentEncoded keep [c] ++ percentCompletedFrom keep 0 rest

/-- The text with the code points outside a class encoded, and with encoded bytes left as they
are. -/
def percentCompleted (keep : CodePoint → Bool) (t : Text) : Text := percentCompletedFrom keep 0 t

/-- A text whose code points all may stand as they are is left alone. -/
theorem percentEncoded_of_forall {keep : CodePoint → Bool} {t : Text}
    (h : ∀ c ∈ t, keep c = true) : percentEncoded keep t = t := by
  induction t with
  | nil => rfl
  | cons c rest ih =>
    have hc := h c (by simp)
    have hrest := ih fun d hd ↦ h d (by simp [hd])
    simp only [percentEncoded, List.flatMap_cons, hc, if_true] at hrest ⊢
    simp [hrest]

end Text

end StoryCatalog
