import StoryCatalog.Json.Scalar
import StoryCatalog.Settings.Environment
import StoryCatalog.Url.Basic

/-!
# Settings

What can be set for an extraction. A value comes from the caller, else from the environment, else
from a file of variables, else it is the default one. Settings are refused with the faults of all
their values.
-/

namespace StoryCatalog

/-- The settings of an extraction. Times are in seconds. -/
structure Settings where
  url : Text
  port : Option Nat
  projectRoot : Path
  sourceDirectory : Path
  outputDirectory : Path
  outputFile : Text
  pageLimit : Binary64
  storyLimit : Binary64
  indexLimit : Binary64
  probeLimit : Binary64
  runLimit : Option Binary64
  cacheTtl : Binary64
  headless : Bool
  debug : Bool
  logLevel : Text
  /-- The names of the settings that are not left at their defaults, in order. -/
  given : List Text

/-- Why there are no settings: the faults of values, or a file of variables that is no text. -/
inductive SettingsFault where
  | values (faults : List (Text × Fault))
  | encoding (fault : DecodeFault)

namespace Settings

/-- The name of the file of variables in the working directory. -/
def fileName : Text := ".env"

/-- What the names of variables begin with. -/
def variableStart : Text := "storybook_"

/-- The names of all settings, in order. -/
def names : List Text :=
  ["url", "port", "project_root", "source_dir", "output_dir", "output_file", "timeout",
    "story_timeout", "index_timeout", "probe_timeout", "run_timeout", "cache_ttl", "headless",
    "debug_mode", "log_level"]

/-- The value of a variable for a setting. -/
def variableOf (environment : Environment) (name : Text) : Option Json :=
  (Fields.get? environment (variableStart ++ name)).map Json.string

/-- The values that are given for settings by the caller, by an environment and by a file. -/
def givenValues (values : Fields Json) (environment file : Environment) : Fields Json :=
  names.filterMap fun name ↦
    let value := (Fields.get? values name).or
      ((variableOf environment.lowered name).or (variableOf file.lowered name))
    value.map fun v ↦ (name, v)

/-! ### Values -/

/-- An integer up to bounds. -/
def intWithin (low high : Int) (value : Json) : Except Fault Nat := do
  let n ← Scalar.int value
  if n < low then throw .greaterThanEqual
  if high < n then throw .lessThanEqual
  return n.toNat

/-- A number above zero. -/
def positive (value : Json) : Except Fault Binary64 := do
  let x ← Scalar.float value
  if Binary64.lt (.ofInt 0) x then return x else throw .greaterThan

/-- A number that is not below zero. -/
def notNegative (value : Json) : Except Fault Binary64 := do
  let x ← Scalar.float value
  if Binary64.lt (.ofInt 0) x || x.isZero then return x else throw .greaterThanEqual

/-- A value that may be `null`. -/
def nullable {α : Type} (read : Json → Except Fault α) : Json → Except Fault (Option α)
  | .null => .ok none
  | value => (read value).map some

/-- A path. -/
def pathOf : Json → Except Fault Path
  | .string t => .ok (Path.ofText t)
  | _ => .error .pathType

/-- A URL without the slashes at its end. -/
def urlOf (value : Json) : Except Fault Text :=
  (Scalar.string value).map fun t ↦ Text.dropEndWhile t (· == CodePoint.ofChar '/')

/-- A log level in upper case. -/
def levelOf (value : Json) : Except Fault Text := (Scalar.string value).map Text.upper

/-- Results with all their faults. -/
abbrev Checked (α : Type) := Except (List (Text × Fault)) α

/-- The setting of a name, or its default. -/
def setting {α : Type} (given : Fields Json) (name : Text) (other : α)
    (read : Json → Except Fault α) : Checked α :=
  match Fields.get? given name with
  | none => .ok other
  | some value => (read value).mapError fun fault ↦ [(name, fault)]

/-- Applies a function to a value; the faults of both are kept. -/
def both {α β : Type} (f : Checked (α → β)) (a : Checked α) : Checked β :=
  match f, a with
  | .ok f, .ok a => .ok (f a)
  | .ok _, .error faults => .error faults
  | .error faults, .ok _ => .error faults
  | .error faults, .error more => .error (faults ++ more)

/-- The settings that given values make. -/
def ofValues (given : Fields Json) : Checked Settings :=
  let field {α β : Type} (f : Checked (α → β)) (name : Text) (other : α)
      (read : Json → Except Fault α) : Checked β := both f (setting given name other read)
  let s : Checked _ := .ok Settings.mk
  let s := field s "url" "http://localhost:6006" urlOf
  let s := field s "port" none (nullable (intWithin 1 65535))
  let s := field s "project_root" (Path.ofText ".") pathOf
  let s := field s "source_dir" (Path.ofText "src") pathOf
  let s := field s "output_dir" (Path.ofText "storybook-static") pathOf
  let s := field s "output_file" "stories.json" Scalar.string
  let s := field s "timeout" (.ofInt 30) positive
  let s := field s "story_timeout" (.ofInt 5) positive
  let s := field s "index_timeout" (.ofInt 10) positive
  let s := field s "probe_timeout" (.ofInt 1) positive
  let s := field s "run_timeout" none (nullable positive)
  let s := field s "cache_ttl" (.ofInt 5) notNegative
  let s := field s "headless" true Scalar.bool
  let s := field s "debug_mode" false Scalar.bool
  let s := field s "log_level" "INFO" levelOf
  both s (.ok given.keys)

/-- The variables of the file in the working directory, if there is one. -/
def fileVariables (fs : FileSystem) (environment : Environment) :
    Except DecodeFault Environment :=
  match fs.readText (Path.ofText fileName) with
  | .ok t => .ok (Environment.ofText environment t)
  | .error (.encoding fault) => .error fault
  | .error (.file _) => .ok []

/-- The settings that the caller's values, the environment and the file of variables make. -/
def load (fs : FileSystem) (environment : Environment) (values : Fields Json) :
    Except SettingsFault Settings :=
  match fileVariables fs environment with
  | .error fault => .error (.encoding fault)
  | .ok file =>
    match ofValues (givenValues values environment file) with
    | .ok s => .ok s
    | .error faults => .error (.values faults)

/-! ### What follows from settings -/

/-- Whether a setting is not left at its default. -/
def isGiven (s : Settings) (name : Text) : Bool := s.given.contains name

/-- The URL of the server, with the port that is set for it. -/
def effectiveUrl (s : Settings) : Except UrlFault Text :=
  match s.port with
  | none => .ok s.url
  | some port => (Url.ofText s.url).map fun u ↦ (u.withPort port).text

/-- The log level that is used. -/
def effectiveLogLevel (s : Settings) : Text := if s.debug then "DEBUG" else s.logLevel

/-- The root of the project as an absolute path. -/
def resolvedProjectRoot (s : Settings) (working : Path) (homes : Homes) : Except HomeFault Path :=
  (s.projectRoot.expandHome homes).map (Path.resolve working)

/-- A directory below the root of the project, unless it is absolute. -/
def underRoot (s : Settings) (working : Path) (homes : Homes) (p : Path) :
    Except HomeFault Path := do
  let p ← p.expandHome homes
  if p.isAbsolute then return p
  return (← s.resolvedProjectRoot working homes).join p

/-- The directory of the source files. -/
def resolvedSourceDirectory (s : Settings) (working : Path) (homes : Homes) :
    Except HomeFault Path :=
  s.underRoot working homes s.sourceDirectory

/-- The directory of the built Storybook. -/
def resolvedOutputDirectory (s : Settings) (working : Path) (homes : Homes) :
    Except HomeFault Path :=
  s.underRoot working homes s.outputDirectory

/-- Where the catalog is saved. -/
def outputPath (s : Settings) (working : Path) (homes : Homes) : Except HomeFault Path :=
  (s.resolvedOutputDirectory working homes).map (·.child s.outputFile)

end Settings

end StoryCatalog
