import StoryCatalog.Script.Statements

/-!
# Reading modules

`Module.read` reads a source text as a list of statements. The readers of the grammar are joined
here: each level of nesting uses the readers of the level below it, and the source is long enough
to bound the levels.
-/

namespace StoryCatalog.Script

/-- The readers of the grammar for a source nested at most `depth` levels deep. -/
def Grammar.ofDepth : Nat → Grammar
  | 0 =>
    { expression := Reading.fail
      operand := fun _ ↦ Reading.fail
      statement := Reading.fail
      type := Reading.fail
      pattern := fun _ ↦ Reading.fail
      markup := Reading.fail }
  | depth + 1 =>
    { expression := fun scope position ↦ Expressions.ofGrammar (ofDepth depth) scope position
      operand := fun bang scope position ↦
        Expressions.operand (ofDepth depth) bang scope position
      statement := fun scope position ↦ Statements.ofGrammar (ofDepth depth) scope position
      type := fun scope position ↦ Types.ofGrammar (ofDepth depth) scope position
      pattern := fun targets scope position ↦
        Expressions.pattern (ofDepth depth) targets scope position
      markup := fun scope position ↦ Markup.ofGrammar (ofDepth depth) scope position }

namespace Module

open Reading

/-- The statements up to the end of the source. -/
def statements (g : Grammar) : Reading Module := do
  let source := (← read).source
  space
  if (← peek) == some '#' && source[(← position) + 1]? == some '!' then
    discard <| upTo fun source position ↦
      some (endOfRun source (fun c ↦ !isLineEnd c) position)
  repeated do
    Statements.skipHypertextComments (source.size + 1)
    space
    match ← peek with
    | none => return none
    | some _ => return some (← asStatement g.statement)

/-- The module that a source text denotes, or the line of the statement that holds its fault. -/
def read (dialect : Dialect) (source : List Char) : Except Nat Module :=
  let source := source.toArray
  match statements (Grammar.ofDepth (4 * source.size + 64)) { source, dialect } 0 with
  | .ok (result, _) => .ok result
  | .error failure => .error (lineOf source (endOfSpace source failure.statement))

end Module

end StoryCatalog.Script
