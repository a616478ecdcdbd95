import StoryCatalog.Story.Record

/-!
# Usage snippets

A piece of markup that renders the component of a story with the arguments of the story.
-/

namespace StoryCatalog

namespace StoryRecord

/-- An attribute whose value is an expression in braces. -/
def bracedProp (key expression : Text) : Text := Text.concat [key, "=\x7b", expression, "\x7d"]

/-- The digits of a number in a snippet: integral values have no fraction. -/
def usageNumber (n : Number) : Except TooManyDigits Text :=
  match n with
  | .int n => if Number.fitsLimit n then .ok (Text.ofInt n) else .error .tooManyDigits
  | .float x => .ok (match x.toInt? with
    | some n => Text.ofInt n
    | none => x.text)

/-- The attribute for an argument. A text stands in quotes as it is, `true` is the bare name, and
`false` leaves nothing. -/
def usageProp (key : Text) : Json → Except TooManyDigits Text
  | .string t => .ok (Text.concat [key, "=\"", t, "\""])
  | .bool b => .ok (if b then key else [])
  | .number n => return bracedProp key (← usageNumber n)
  | value => return bracedProp key (← Json.print .compact value)

/-- The name of the component in a snippet: the component's own, or the last part of the title. -/
def usageName (r : StoryRecord) : Text :=
  let fromTitle : Text :=
    if r.title.isEmpty then "Component"
    else ((Text.splitOn (CodePoint.ofChar '/') r.title).getLast?).getD []
  match r.component with
  | .string name => if name.isEmpty then fromTitle else name
  | _ => fromTitle

/-- The snippet of a story. -/
def usage (r : StoryRecord) : Except TooManyDigits Text := do
  let props ← r.args.mapM fun (key, value) ↦ usageProp key value
  let given := props.filter (!·.isEmpty)
  return Text.concat ["<", Text.join " " (r.usageName :: given), " />"]

end StoryRecord

end StoryCatalog
