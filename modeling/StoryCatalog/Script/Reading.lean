import StoryCatalog.Text.CodePoint

/-!
# Reading a source text

The readers of the grammar go through the characters of a source by position. A reader may give
up; when several ways of reading a place all give up, the one that came furthest tells where the
source is at fault. A fault is reported by the statement it lies in, so each failure carries the
start of the innermost statement that was being read.
-/

namespace StoryCatalog.Script

/-- The two grammars: with markup, or with type assertions in angle brackets. -/
inductive Dialect where
  | markup
  | plain
  deriving DecidableEq, Repr

/-- The names of the grammars. -/
def Dialect.name : Dialect → String
  | .markup => "tsx"
  | .plain => "typescript"

/-- What readers know of the place they read at. -/
structure Scope where
  source : Array Char
  dialect : Dialect
  /-- Whether a line end may close the statement being read. -/
  lineEnds : Bool := true
  /-- Whether `in` is an operator here. -/
  admitsIn : Bool := true
  /-- Whether parameters in parentheses may be followed by a result type. -/
  admitsResultType : Bool := true
  /-- The start of the innermost statement. -/
  statement : Nat := 0

/-- How far a failed reader came, and the statement it was in. -/
structure Failure where
  position : Nat
  statement : Nat

/-- A reader of a part of the source. -/
abbrev Reading := ReaderT Scope (StateT Nat (Except Failure))

namespace Reading

/-- Gives up at the current position. -/
def fail {α : Type} : Reading α := fun scope position ↦
  .error ⟨position, scope.statement⟩

/-- The further of two failures. -/
def further (first second : Failure) : Failure :=
  if first.position < second.position then second else first

/-- The second reader where the first one gives up. -/
def orElse {α : Type} (first : Reading α) (second : Unit → Reading α) : Reading α :=
  fun scope position ↦
    match first scope position with
    | .ok result => .ok result
    | .error failure =>
      match second () scope position with
      | .ok result => .ok result
      | .error other => .error (further failure other)

instance {α : Type} : OrElse (Reading α) := ⟨orElse⟩

/-- The result of a reader, or nothing and no progress where it gives up. -/
def option {α : Type} (reader : Reading α) : Reading (Option α) := fun scope position ↦
  match reader scope position with
  | .ok (result, next) => .ok (some result, next)
  | .error _ => .ok (none, position)

/-- Whether a reader succeeds here; the position stays. -/
def ahead {α : Type} (reader : Reading α) : Reading Bool := fun scope position ↦
  match reader scope position with
  | .ok _ => .ok (true, position)
  | .error _ => .ok (false, position)

/-- The current position. -/
def position : Reading Nat := get

/-- Moves to a position. -/
def moveTo (position : Nat) : Reading Unit := set position

/-- A reader inside brackets: line ends close nothing, and all operators are admitted. -/
def bracketed {α : Type} (reader : Reading α) : Reading α :=
  withReader (fun scope ↦
    { scope with lineEnds := false, admitsIn := true, admitsResultType := true }) reader

/-- A reader of a statement that starts at the current position. -/
def asStatement {α : Type} (reader : Reading α) : Reading α := fun scope position ↦
  reader { scope with
    lineEnds := true, admitsIn := true, admitsResultType := true, statement := position } position

/-- The text of the source from a position up to the current one. -/
def textFrom (start : Nat) : Reading Text := fun scope position ↦
  .ok (Text.ofChars (scope.source.extract start position).toList, position)

/-- The line of a position, counted from one. -/
def lineOf (source : Array Char) (position : Nat) : Nat :=
  (source.extract 0 position).foldl (fun line c ↦ if c = '\n' then line + 1 else line) 1

/-- The results of a reader used as often as it succeeds and moves on. `fuel` bounds the count. -/
def repeatWith {α : Type} (reader : Reading (Option α)) : Nat → List α → Reading (List α)
  | 0, _ => fail
  | fuel + 1, read => do
    let start ← position
    match ← reader with
    | none => return read.reverse
    | some result =>
      if (← position) = start then fail
      repeatWith reader fuel (result :: read)

/-- The results of a reader used until it gives nothing. -/
def repeated {α : Type} (reader : Reading (Option α)) : Reading (List α) := do
  let scope ← read
  repeatWith reader (scope.source.size + 2) []

end Reading

end StoryCatalog.Script
