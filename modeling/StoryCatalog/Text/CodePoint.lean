/-!
# Code points and texts

A text is its list of code points. Surrogates are code points of their own here: escapes in story
files and in JSON documents may denote them one by one, and they have to survive until the text is
written out. Main statements: a text made of scalar values reads back as the same string
(`toString?_ofString`), and a text that holds a surrogate is no string.
-/

namespace StoryCatalog

/-- A Unicode code point, surrogates included. -/
structure CodePoint where
  val : Nat
  isLt : val < 0x110000
  deriving DecidableEq, Repr

/-- A text is its list of code points. -/
abbrev Text := List CodePoint

namespace CodePoint

instance : Inhabited CodePoint := ⟨⟨0, by decide⟩⟩

/-- Code points are equal as soon as their numbers are. -/
theorem ext {c d : CodePoint} (h : c.val = d.val) : c = d := by
  cases c
  cases d
  simp_all

/-- The number of a character is below the number of code points. -/
theorem toNat_lt (c : Char) : c.toNat < 0x110000 := by
  have h := c.valid
  simp only [UInt32.isValidChar, Nat.isValidChar] at h
  simp only [Char.toNat]
  omega

/-- The code point of a character. -/
def ofChar (c : Char) : CodePoint := ⟨c.toNat, toNat_lt c⟩

instance : Coe Char CodePoint := ⟨ofChar⟩

/-- The number of a character's code point. -/
@[simp] theorem val_ofChar (c : Char) : (ofChar c).val = c.toNat := rfl

/-- The code point with a number, if there is one. -/
def ofNat? (n : Nat) : Option CodePoint :=
  if h : n < 0x110000 then some ⟨n, h⟩ else none

/-- Surrogates are the code points that encode no character. -/
def isSurrogate (c : CodePoint) : Bool := 0xD800 ≤ c.val && c.val < 0xE000

/-- The character with a code point, unless it is a surrogate. -/
def toChar? (c : CodePoint) : Option Char :=
  if c.isSurrogate then none else some (Char.ofNat c.val)

/-- Every character is found again at its code point. -/
theorem toChar?_ofChar (c : Char) : (ofChar c).toChar? = some c := by
  have h : c.toNat.isValidChar := c.valid
  have hs : (ofChar c).isSurrogate = false := by
    simp only [Nat.isValidChar, ← val_ofChar] at h
    simp [isSurrogate, -val_ofChar]
    omega
  rw [toChar?, hs]
  simp

/-- Whether a code point is an ASCII digit. -/
def isDigit (c : CodePoint) : Bool := 0x30 ≤ c.val && c.val ≤ 0x39

/-- The value of an ASCII digit. -/
def digitValue? (c : CodePoint) : Option Nat :=
  if c.isDigit then some (c.val - 0x30) else none

/-- The value of a hexadecimal digit, in either letter case. -/
def hexValue? (c : CodePoint) : Option Nat :=
  if c.isDigit then some (c.val - 0x30)
  else if 0x41 ≤ c.val && c.val ≤ 0x46 then some (c.val - 0x37)
  else if 0x61 ≤ c.val && c.val ≤ 0x66 then some (c.val - 0x57)
  else none

/-- Whether a code point is a hexadecimal digit. -/
def isHexDigit (c : CodePoint) : Bool := c.hexValue?.isSome

/-- Whether a code point is an ASCII letter in lower case. -/
def isLowerAscii (c : CodePoint) : Bool := 0x61 ≤ c.val && c.val ≤ 0x7A

/-- The digit that stands for `n < 10`. -/
def ofDigit (n : Nat) : CodePoint :=
  if h : n < 10 then ⟨0x30 + n, by omega⟩ else ⟨0x3F, by decide⟩

/-- The lower-case hexadecimal digit that stands for `n < 16`. -/
def ofHexDigit (n : Nat) : CodePoint :=
  if h : n < 10 then ⟨0x30 + n, by omega⟩
  else if h : n < 16 then ⟨0x57 + n, by omega⟩
  else ⟨0x3F, by decide⟩

end CodePoint

namespace Text

/-- The text of a string. -/
def ofString (s : String) : Text := s.toList.map CodePoint.ofChar

/-- The text of a list of characters. -/
def ofChars (cs : List Char) : Text := cs.map CodePoint.ofChar

instance : Coe String Text := ⟨ofString⟩

/-- The characters of a text, unless it holds a surrogate. -/
def toChars? (t : Text) : Option (List Char) := t.mapM CodePoint.toChar?

/-- The string of a text, unless it holds a surrogate. -/
def toString? (t : Text) : Option String := (toChars? t).map String.ofList

/-- Characters are read back from their text. -/
theorem toChars?_ofChars (cs : List Char) : toChars? (ofChars cs) = some cs := by
  induction cs with
  | nil => rfl
  | cons c cs ih =>
    simp only [toChars?, ofChars, List.map_cons, List.mapM_cons] at ih ⊢
    simp [CodePoint.toChar?_ofChar, ih]

/-- A string is read back from its text. -/
theorem toString?_ofString (s : String) : toString? (ofString s) = some s := by
  have h : toChars? (ofString s) = some s.toList := toChars?_ofChars s.toList
  simp [toString?, h]

/-- Texts one after another. -/
def concat (parts : List Text) : Text := parts.flatten

/-- Texts one after another with a separator between neighbours. -/
def join (separator : Text) : List Text → Text
  | [] => []
  | [t] => t
  | t :: rest => t ++ separator ++ join separator rest

/-- Whether a text begins with another. -/
def startsWith (t start : Text) : Bool := start.isPrefixOf t

/-- Whether a text ends with another. -/
def endsWith (t ending : Text) : Bool := ending.isSuffixOf t

/-- Whether a text holds another one, at any place. -/
def holds (t part : Text) : Bool :=
  part.isPrefixOf t ||
    match t with
    | [] => false
    | _ :: rest => holds rest part

/-- The pieces of a text between the occurrences of a separator. -/
def splitOn (separator : CodePoint) : Text → List Text
  | [] => [[]]
  | c :: rest =>
    if c = separator then [] :: splitOn separator rest
    else
      match splitOn separator rest with
      | [] => [[c]]
      | piece :: pieces => (c :: piece) :: pieces

/-- The text with another one put in the place of every occurrence of a code point. -/
def replace (t : Text) (c : CodePoint) (new : Text) : Text :=
  t.flatMap fun d ↦ if d = c then new else [d]

/-- The text without its last code points of a class. -/
def dropEndWhile (t : Text) (p : CodePoint → Bool) : Text := (t.reverse.dropWhile p).reverse

/-- The decimal digits of a natural number. -/
def ofNat (n : Nat) : Text := (Nat.toDigits 10 n).map CodePoint.ofChar

/-- The decimal digits of an integer after its sign, if it is negative. -/
def ofInt (n : Int) : Text :=
  if n < 0 then CodePoint.ofChar '-' :: ofNat n.natAbs else ofNat n.natAbs

/-- The number that digits of a base denote, the highest digit first. -/
def readDigits (base : Nat) (digits : List Nat) : Nat :=
  digits.foldl (fun n digit ↦ n * base + digit) 0

/-- Whether a text comes before another one in the order of code points. -/
def isBefore : Text → Text → Bool
  | [], [] => false
  | [], _ :: _ => true
  | _ :: _, [] => false
  | c :: s, d :: t => c.val < d.val || (c.val == d.val && isBefore s t)

end Text

end StoryCatalog
