import StoryCatalog.Text.CaseTable

/-!
# Letter case

Full case mapping of texts. Two rules look beyond a single code point: `İ` has a lower-case form
of two code points, and a capital sigma is written as a final sigma when a cased letter comes
before it and none comes after it, code points that case rules look past left aside.
-/

namespace StoryCatalog

namespace CodePoint

/-- Whether a code point counts as a letter with case. -/
def isCased (c : CodePoint) : Bool :=
  (0x41 ≤ c.val && c.val ≤ 0x5A) || c.isLowerAscii ||
    (0x80 ≤ c.val && Text.casedRanges.any fun range ↦ range.1 ≤ c.val && c.val ≤ range.2)

/-- Whether case rules look past a code point. -/
def isCaseIgnorable (c : CodePoint) : Bool :=
  Text.ignorableRanges.any fun range ↦ range.1 ≤ c.val && c.val ≤ range.2

/-- The image of a code point under the runs of a case table. -/
def mapRuns (runs : List Text.CaseRun) (c : CodePoint) : CodePoint :=
  match runs.find? (·.covers c.val) with
  | some run => (ofNat? (run.image c.val)).getD c
  | none => c

/-- The lower-case form of a code point, its neighbours left aside. -/
def lower (c : CodePoint) : Text :=
  if h : 0x41 ≤ c.val ∧ c.val ≤ 0x5A then [⟨c.val + 0x20, by omega⟩]
  else if c.val < 0x80 then [c]
  else if c.val = 0x130 then [ofChar 'i', ofChar '\u0307']
  else [mapRuns Text.lowerRuns c]

/-- The upper-case form of a code point. -/
def upper (c : CodePoint) : Text :=
  if h : 0x61 ≤ c.val ∧ c.val ≤ 0x7A then [⟨c.val - 0x20, by omega⟩]
  else if c.val < 0x80 then [c]
  else
    match Text.upperExpansions.find? (·.1 == c.val) with
    | some (_, image) => image.filterMap ofNat?
    | none => [mapRuns Text.upperRuns c]

end CodePoint

namespace Text

/-- Whether the nearest code point that case rules do not look past is a cased letter. -/
def nextIsCased (t : Text) : Bool :=
  match t.dropWhile CodePoint.isCaseIgnorable with
  | [] => false
  | c :: _ => c.isCased

/-- The lower-case form of a text after the code points of `before`, the nearest one first. -/
def lowerAfter (before : Text) : Text → Text
  | [] => []
  | c :: rest =>
    (if c = CodePoint.ofChar 'Σ' then
      if nextIsCased before && !nextIsCased rest then [CodePoint.ofChar 'ς']
      else [CodePoint.ofChar 'σ']
    else c.lower) ++ lowerAfter (c :: before) rest

/-- The lower-case form of a text. -/
def lower (t : Text) : Text := lowerAfter [] t

/-- The upper-case form of a text. -/
def upper (t : Text) : Text := t.flatMap CodePoint.upper

end Text

end StoryCatalog
