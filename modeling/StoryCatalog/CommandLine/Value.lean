import StoryCatalog.Files
import StoryCatalog.Json.Basic
import StoryCatalog.Number.Decimal

/-!
# Values of options

What the texts given to options have to be: integers, numbers, one of some words, or the name of a
directory or a file. A refused text is told with what it is not.
-/

namespace StoryCatalog

/-- Why a text is refused as the value of an option. -/
inductive ValueFault where
  | notInteger (t : Text)
  | notNumber (t : Text)
  | notAmong (t : Text) (choices : List Text)
  | noDirectory (t : Text)
  | fileForDirectory (t : Text)
  | directoryForFile (t : Text)

/-- The wording of a fault. -/
def ValueFault.message : ValueFault → Text
  | .notInteger t => Text.concat [t.quoted, " is not a valid integer."]
  | .notNumber t => Text.concat [t.quoted, " is not a valid float."]
  | .notAmong t choices =>
    Text.concat [t.quoted, " is not one of ", Text.join ", " (choices.map Text.quoted), "."]
  | .noDirectory t => Text.concat ["Directory ", t.quoted, " does not exist."]
  | .fileForDirectory t => Text.concat ["Directory ", t.quoted, " is a file."]
  | .directoryForFile t => Text.concat ["File ", t.quoted, " is a directory."]

namespace Numeral

/-- The text without its underscores, if each of them stands between two digits. -/
def withoutUnderscores? (afterDigit : Bool) : Text → Option Text
  | [] => some []
  | c :: rest =>
    if c = CodePoint.ofChar '_' then
      if afterDigit && rest.head?.any (·.isDigit) then withoutUnderscores? false rest else none
    else (withoutUnderscores? c.isDigit rest).map (c :: ·)

/-- A text of ASCII digits and marks, without blanks around it and underscores between its digits,
for a text with the digits of any script. -/
def plain? (t : Text) : Option Text :=
  (Binary64.plainDigits? t.strip).bind (withoutUnderscores? false)

/-- The integer that decimal digits denote, after a sign. -/
def integer? (t : Text) : Option Int :=
  match plain? t with
  | none => none
  | some t =>
    let (negative, digits) := Decimal.takeSign t
    if digits.isEmpty || !digits.all CodePoint.isDigit ||
        Number.digitLimit < digits.length then none
    else
      let n : Int := (Text.readDigits 10 (digits.filterMap CodePoint.digitValue?) : Int)
      some (if negative then -n else n)

/-- The number that a decimal with a sign denotes, or the name of an infinity or of NaN. -/
def decimal? (t : Text) : Option Binary64 := (plain? t).bind Binary64.read?

end Numeral

/-- What an option takes. -/
inductive OptionKind where
  | flag
  | word (word : Text)
  | text
  | integer
  | number
  | choice (choices : List Text)
  | directory (mustExist : Bool)
  | file

namespace OptionKind

/-- Whether an option takes the text that follows it. -/
def takesValue : OptionKind → Bool
  | .flag => false
  | .word _ => false
  | _ => true

/-- What a path written as a text leads to. The empty text leads nowhere, and a path that ends
behind a slash leads to a directory. -/
def node? (fs : FileSystem) (t : Text) : Option Node :=
  let last := (Text.splitOn (CodePoint.ofChar '/') t).getLast?.getD []
  if t.isEmpty then none
  else
    match fs.find (Path.ofText t) with
    | .ok (.file content time) =>
      if last.isEmpty || last = ("." : Text) then none else some (.file content time)
    | .ok .directory => some .directory
    | .error _ => none

/-- The value that a text is for an option. -/
def read (fs : FileSystem) (kind : OptionKind) (t : Text) : Except ValueFault Json :=
  match kind with
  | .flag => .ok (.bool true)
  | .word chosen => .ok (.string chosen)
  | .text => .ok (.string t)
  | .integer => ((Numeral.integer? t).map fun n ↦ Except.ok (.int n)).getD (.error (.notInteger t))
  | .number =>
    ((Numeral.decimal? t).map fun x ↦ Except.ok (.number (.float x))).getD (.error (.notNumber t))
  | .choice choices => if choices.contains t then .ok (.string t) else .error (.notAmong t choices)
  | .directory mustExist =>
    match node? fs t with
    | some (.file ..) => .error (.fileForDirectory t)
    | some .directory => .ok (.string t)
    | none => if mustExist then .error (.noDirectory t) else .ok (.string t)
  | .file =>
    match node? fs t with
    | some .directory => .error (.directoryForFile t)
    | _ => .ok (.string t)

end OptionKind

end StoryCatalog
