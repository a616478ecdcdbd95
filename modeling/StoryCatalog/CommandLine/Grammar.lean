import StoryCatalog.CommandLine.Value

/-!
# Grammars of command lines

A grammar names the options of a command and its operand. Arguments are read one by one: an option
that takes a value waits for the next argument, whatever that is. Faults of the arguments come
before faults of the values, and these in the order in which the options were first used. Main
statement: behind two hyphens every argument is an operand (`scan_of_isOver`).
-/

namespace StoryCatalog

/-- An option of a command: how it is written, and the key of its value. An urgent option is
answered without a look at the others. -/
structure CommandOption where
  names : List Text
  key : Text
  kind : OptionKind
  isUrgent : Bool := false

/-- Why the arguments of a command line are refused. -/
inductive UsageFault where
  | unknownOption (name : Text)
  | unknownCommand (name : Text)
  | missingCommand
  | missingValue (name : Text)
  | needlessValue (name : Text)
  | missingOperand (name : Text)
  | extraOperands (operands : List Text)
  | invalidValue (place : Text) (fault : Text)

/-- The wording of a fault. -/
def UsageFault.message : UsageFault → Text
  | .unknownOption name => Text.concat ["No such option ", name.quoted, "."]
  | .unknownCommand name => Text.concat ["No such command ", name.quoted, "."]
  | .missingCommand => "Missing command."
  | .missingValue name => Text.concat ["Option ", name.quoted, " requires an argument."]
  | .needlessValue name => Text.concat ["Option ", name.quoted, " does not take a value."]
  | .missingOperand name => Text.concat ["Missing argument '", name, "'."]
  | .extraOperands operands =>
    Text.concat ["Got unexpected extra argument", if operands.length = 1 then [] else "s", " (",
      Text.join " " operands, ")"]
  | .invalidValue place fault => Text.concat ["Invalid value for ", place, ": ", fault]

/-- The options and the operand of a command. Where operands end the options, everything from the
first operand on is one. -/
structure Grammar where
  options : List CommandOption
  operand : Option Text := none
  operandsEndOptions : Bool := false

/-- An option that was used, with the text given to it. -/
structure OptionUse where
  option : CommandOption
  value : Text

/-- What has been read of the arguments: the uses of options, the operands, the option that waits
for its value, and whether all further arguments are operands. -/
structure Scan where
  uses : List OptionUse := []
  operands : List Text := []
  waiting : Option (Text × CommandOption) := none
  isOver : Bool := false

namespace Scan

/-- An option with the text given to it. -/
def use (s : Scan) (option : CommandOption) (value : Text) : Scan :=
  { s with uses := s.uses ++ [⟨option, value⟩], waiting := none }

/-- One more operand. -/
def addOperand (s : Scan) (operand : Text) : Scan := { s with operands := s.operands ++ [operand] }

end Scan

namespace Grammar

private def hyphen : CodePoint := CodePoint.ofChar '-'

/-- The option with a name. -/
def option? (g : Grammar) (name : Text) : Option CommandOption :=
  g.options.find? (·.names.contains name)

/-- Whether a name is spelled out behind two hyphens. -/
def isLong (name : Text) : Bool := Text.startsWith name "--"

/-- Reads a cluster of one-letter options: one that takes a value takes the rest of the cluster, or
waits for the next argument. -/
def readCluster (g : Grammar) (s : Scan) : Text → Except UsageFault Scan
  | [] => .ok s
  | letter :: rest =>
    let name := [hyphen, letter]
    match g.option? name with
    | none => .error (.unknownOption name)
    | some option =>
      if !option.kind.takesValue then g.readCluster (s.use option []) rest
      else if rest.isEmpty then .ok { s with waiting := some (name, option) }
      else .ok (s.use option rest)

/-- Reads an option that is spelled out, with the value behind its equals sign, if it has one. -/
def readLong (s : Scan) (name : Text) (value : Option Text) (option : CommandOption) :
    Except UsageFault Scan :=
  match option.kind.takesValue, value with
  | true, some value => .ok (s.use option value)
  | true, none => .ok { s with waiting := some (name, option) }
  | false, some _ => .error (.needlessValue name)
  | false, none => .ok (s.use option [])

/-- Reads an argument that begins with a hyphen. -/
def readOption (g : Grammar) (s : Scan) (argument : Text) : Except UsageFault Scan :=
  let equals := CodePoint.ofChar '='
  let name := argument.takeWhile (· != equals)
  let value := if argument.contains equals then some (argument.drop (name.length + 1)) else none
  if isLong argument then
    match g.option? name with
    | some option => readLong s name value option
    | none => .error (.unknownOption name)
  else g.readCluster s (argument.drop 1)

/-- Reads an argument. -/
def readArgument (g : Grammar) (s : Scan) (argument : Text) : Except UsageFault Scan :=
  match s.waiting with
  | some (_, option) => .ok (s.use option argument)
  | none =>
    if s.isOver then .ok (s.addOperand argument)
    else if argument = ("--" : Text) then .ok { s with isOver := true }
    else if argument.head? = some hyphen && 1 < argument.length then g.readOption s argument
    else .ok { s.addOperand argument with isOver := g.operandsEndOptions }

/-- Reads arguments. -/
def scan (g : Grammar) (s : Scan) : List Text → Except UsageFault Scan
  | [] =>
    match s.waiting with
    | some (name, _) => .error (.missingValue name)
    | none => .ok s
  | argument :: rest =>
    match g.readArgument s argument with
    | .error fault => .error fault
    | .ok s => g.scan s rest

/-- Once no options follow, all arguments are operands. -/
theorem scan_of_isOver (g : Grammar) (uses : List OptionUse) (operands arguments : List Text) :
    g.scan ⟨uses, operands, none, true⟩ arguments =
      .ok ⟨uses, operands ++ arguments, none, true⟩ := by
  induction arguments generalizing operands with
  | nil => simp [scan]
  | cons argument rest ih => simp [scan, readArgument, Scan.addOperand, ih]

/-- How an option is named in a fault. -/
def place (option : CommandOption) : Text := Text.join " / " (option.names.map Text.quoted)

/-- The values of used options, under their keys. Of several uses the last one counts. -/
def valuesOf (fs : FileSystem) (uses : List OptionUse) : Except UsageFault (Fields Json) :=
  (Fields.ofList (uses.map fun u ↦ (u.option.key, u))).mapM fun (key, u) ↦
    match u.option.kind.read fs u.value with
    | .ok value => .ok (key, value)
    | .error fault => .error (.invalidValue (place u.option) fault.message)

/-- What arguments say: an urgent option, or the values of options and the operands. -/
inductive Reading where
  | urgent (key : Text)
  | plain (values : Fields Json) (operands : List Text)

/-- What arguments say by a grammar. -/
def read (g : Grammar) (fs : FileSystem) (arguments : List Text) : Except UsageFault Reading :=
  match g.scan {} arguments with
  | .error fault => .error fault
  | .ok s =>
    match s.uses.find? (·.option.isUrgent) with
    | some u => .ok (.urgent u.option.key)
    | none => (valuesOf fs s.uses).map fun values ↦ .plain values s.operands

/-- The operand of a grammar among operands, empty if it takes none. -/
def operandOf (g : Grammar) (operands : List Text) : Except UsageFault Text :=
  match g.operand, operands with
  | some name, [] => .error (.missingOperand name)
  | some _, [operand] => .ok operand
  | some _, _ :: extra => .error (.extraOperands extra)
  | none, [] => .ok []
  | none, extra => .error (.extraOperands extra)

end Grammar

end StoryCatalog
