import StoryCatalog.Extraction.Selection

/-!
# Summaries

What a run of an extraction tells its user: each attempt on a line with a mark, and what was
extracted.
-/

namespace StoryCatalog

/-- The mark of a status. -/
def AttemptStatus.mark : AttemptStatus → Text
  | .succeeded => "+"
  | .empty => "-"
  | .skipped => "."
  | .timedOut => "!"
  | .failed => "x"

/-- The line of an attempt. -/
def Attempt.line (a : Attempt) : Text :=
  Text.concat ["  [", a.status.mark, "] ", a.name, ": ", a.status.name,
    if a.stories = 0 then [] else Text.concat [" (", Text.ofNat a.stories, " stories)"],
    if a.detail.isEmpty then [] else " - " ++ a.detail]

/-- The lines about the catalog of an outcome, and about where it was written. -/
def Outcome.catalogLines (o : Outcome) (output : Option Text) : List Text :=
  match o.catalog with
  | none => ["No stories extracted."]
  | some c =>
    Text.concat ["Extracted ", Text.ofNat c.size, " stories from ", c.extractedFrom.name] ::
      ((output.filter (!·.isEmpty)).map fun t ↦ ("Catalog written to: " : Text) ++ t).toList

/-- The summary of an outcome. -/
def Outcome.summary (o : Outcome) (output : Option Text) : Text :=
  Text.join [CodePoint.ofChar '\n']
    (("Strategies:" : Text) :: o.attempts.map Attempt.line ++ o.catalogLines output)

end StoryCatalog
