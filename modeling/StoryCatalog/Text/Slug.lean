import StoryCatalog.Text.Blank
import StoryCatalog.Text.Case

/-!
# Slugs

Identifiers made of lower-case ASCII letters, digits and hyphens. A slug keeps the blanks and
slashes of a text as hyphens and drops whatever else is unsafe; a component identifier writes one
hyphen for every run of anything else.
-/

namespace StoryCatalog

namespace CodePoint

/-- Whether a code point is a lower-case ASCII letter or an ASCII digit. -/
def isLowerAlphanumeric (c : CodePoint) : Bool := c.isLowerAscii || c.isDigit

/-- Whether a code point may stand in a slug. -/
def isSlugSafe (c : CodePoint) : Bool := c.isLowerAlphanumeric || c = ofChar '-'

end CodePoint

namespace Text

/-- The text with every run of a class of code points replaced by one mark. -/
def squeeze (p : CodePoint → Bool) (mark : CodePoint) : Text → Text
  | [] => []
  | c :: rest =>
    if p c then
      match rest with
      | [] => [mark]
      | d :: _ => if p d then squeeze p mark rest else mark :: squeeze p mark rest
    else c :: squeeze p mark rest

/-- The slug of a text. -/
def slugify (t : Text) : Text :=
  let hyphen := CodePoint.ofChar '-'
  let joined := squeeze CodePoint.isBlank hyphen (lower t)
  (joined.map fun c ↦ if c = CodePoint.ofChar '/' then hyphen else c).filter CodePoint.isSlugSafe

/-- The identifier of the story with a name under a title. -/
def storyId (title name : Text) : Text := slugify (title ++ ("--" : Text) ++ name)

/-- The identifier of the component with a title. -/
def componentId (title : Text) : Text :=
  let hyphen := CodePoint.ofChar '-'
  let joined := squeeze (fun c ↦ !c.isLowerAlphanumeric) hyphen (lower title)
  dropEndWhile (joined.dropWhile (· == hyphen)) (· == hyphen)

end Text

end StoryCatalog
