import StoryCatalog.Catalog.Search
import StoryCatalog.CommandLine.Grammar
import StoryCatalog.Extraction.Strategy

/-!
# Commands

The commands of the program and how each is written: extracting a catalog, finding the port of a
running Storybook, and questions about the catalog.
-/

namespace StoryCatalog

/-- What is shown of a component. -/
inductive ComponentView where
  | detail
  | documentation
  | examples

/-- A question about a catalog. -/
inductive CatalogQuestion where
  | stats
  | components
  | search (query : Text)
  | stories (filter : Catalog.Filter)
  | component (id : Text) (view : ComponentView)

/-- A command. Settings that it gives are kept under their names. -/
inductive Command where
  | extract (settings : Fields Json) (mode : ExtractionMode) (enhance : Bool)
      (output : Option Text) (usesSource : Bool)
  | detectPort (host : Text)
  | ask (question : CatalogQuestion) (settings : Fields Json)

/-- How a command is written, and the command that values of its options and its operand make. -/
structure CommandForm where
  name : Text
  grammar : Grammar
  make : Fields Json → Text → Command

/-- What a command line asks for. -/
inductive Invocation where
  | guide
  | help (form : Option CommandForm)
  | version
  | command (c : Command)

namespace CommandForm

/-- The text under a key. -/
def text? (values : Fields Json) (key : Text) : Option Text :=
  (values.get? key).map Json.textOrEmpty

/-- Whether a flag is set. -/
def isSet (values : Fields Json) (key : Text) : Bool := values.has key

/-- The values under some keys. -/
def settings (keys : List Text) (values : Fields Json) : Fields Json :=
  values.filter fun entry ↦ keys.contains entry.1

/-- An option that is written in one way. -/
def option (name key : Text) (kind : OptionKind) : CommandOption := { names := [name], key, kind }

/-- The option that asks for help. -/
def help : CommandOption := { option "--help" "help" .flag with isUrgent := true }

/-- The flag for more messages. -/
def verbose : CommandOption := { names := ["--verbose", "-v"], key := "verbose", kind := .flag }

/-- The keys of the options that say where a catalog is. -/
def placeKeys : List Text := ["project_root", "output_dir"]

/-- The options that say where a catalog is. -/
def placeOptions : List CommandOption :=
  [option "--project-root" "project_root" (.directory true),
    option "--output-dir" "output_dir" (.directory false)]

/-- The form of a command that asks about a catalog. -/
def asking (name : Text) (options : List CommandOption) (operand : Option Text)
    (question : Fields Json → Text → CatalogQuestion) : CommandForm where
  name
  grammar := { options := options ++ placeOptions ++ [help], operand }
  make values operand := .ask (question values operand) (settings placeKeys values)

/-- The form of the command that extracts a catalog. -/
def extract : CommandForm where
  name := "extract"
  grammar.options :=
    [option "--mode" "mode" (.choice [ExtractionMode.dev.name, ExtractionMode.build.name]),
      option "--enhance" "enhance" .flag,
      option "--url" "url" .text,
      option "--port" "port" .integer,
      option "--project-root" "project_root" (.directory false),
      option "--source-dir" "source_dir" (.directory false),
      option "--output-dir" "output_dir" (.directory false),
      { names := ["--output", "-o"], key := "output", kind := .file },
      option "--no-source" "no_source" .flag, verbose, help]
  make values _ :=
    .extract (settings ["url", "port", "project_root", "source_dir", "output_dir"] values)
      (((text? values "mode").bind ExtractionMode.ofName?).getD .dev) (isSet values "enhance")
      (text? values "output") (!isSet values "no_source")

/-- The host on which a running Storybook is looked for, unless another is given. -/
def localHost : Text := "localhost"

/-- The form of the command that finds a running Storybook. -/
def detectPort : CommandForm where
  name := "detect-port"
  grammar.options :=
    [option "--host" "host" .text, option "--timeout" "timeout" .number, verbose, help]
  make values _ := .detectPort ((text? values "host").getD localHost)

/-- The view that a word stands for. -/
def viewOf (word : Option Text) : ComponentView :=
  if word = some "docs" then .documentation
  else if word = some "examples" then .examples
  else .detail

/-- The forms of all commands. -/
def all : List CommandForm :=
  [extract, detectPort,
    asking "stats" [] none fun _ _ ↦ .stats,
    asking "components" [] none fun _ _ ↦ .components,
    asking "search" [] (some "QUERY") fun _ query ↦ .search query,
    asking "stories"
      [option "--title" "title" .text, option "--tag" "tag" .text, option "--kind" "kind" .text]
      none fun values _ ↦
        .stories ⟨text? values "title", text? values "tag", text? values "kind"⟩,
    asking "show"
      [option "--docs" "view" (.word "docs"), option "--examples" "view" (.word "examples")]
      (some "COMPONENT_ID") fun values id ↦ .component id (viewOf (text? values "view"))]

/-- The command that arguments make by a form. -/
def read (form : CommandForm) (fs : FileSystem) (arguments : List Text) :
    Except UsageFault Invocation :=
  match form.grammar.read fs arguments with
  | .error fault => .error fault
  | .ok (.urgent _) => .ok (.help (some form))
  | .ok (.plain values operands) =>
    (form.grammar.operandOf operands).map fun operand ↦ .command (form.make values operand)

end CommandForm

namespace Invocation

/-- The grammar of what stands before the name of a command. -/
def grammar : Grammar where
  options := [{ CommandForm.option "--version" "version" .flag with isUrgent := true },
    CommandForm.help]
  operandsEndOptions := true

/-- What an urgent option before the name of a command asks for. -/
def ofUrgent (key : Text) : Invocation := if key = ("version" : Text) then .version else .help none

/-- What a line without a known command asks for: options behind two hyphens count after all. -/
def readUnknown (fs : FileSystem) (name : Text) (arguments : List Text) :
    Except UsageFault Invocation :=
  match grammar.read fs (name :: arguments) with
  | .error fault => .error fault
  | .ok (.urgent key) => .ok (ofUrgent key)
  | .ok (.plain ..) => .error (.unknownCommand name)

/-- What arguments ask for. -/
def read (fs : FileSystem) (arguments : List Text) : Except UsageFault Invocation :=
  if arguments.isEmpty then .ok .guide
  else
    match grammar.read fs arguments with
    | .error fault => .error fault
    | .ok (.urgent key) => .ok (ofUrgent key)
    | .ok (.plain _ []) => .error .missingCommand
    | .ok (.plain _ (name :: rest)) =>
      match CommandForm.all.find? (·.name = name) with
      | some form => form.read fs rest
      | none => readUnknown fs name rest

end Invocation

end StoryCatalog
