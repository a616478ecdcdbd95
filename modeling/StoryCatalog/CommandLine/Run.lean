import StoryCatalog.Catalog.Loader
import StoryCatalog.CommandLine.Report
import StoryCatalog.Extraction.Run
import StoryCatalog.Extraction.Summary
import StoryCatalog.Network.Port

/-!
# Running commands

Arguments are read and the command that they make is run in a session. A command that asks about the
catalog changes nothing; one that extracts a catalog may send requests and saves what it finds.
-/

namespace StoryCatalog

/-- What surrounds a command: the variables of the process, and the time that files are given. -/
structure Surroundings where
  environment : Environment
  time : Binary64

/-- Why a question about a catalog has no answer. -/
inductive QuestionFault where
  | query (error : Catalog.QueryError)
  | noComponent (id : Text)

namespace CatalogQuestion

/-- The stories that were found, as an array. -/
def storyArray (found : List StoryRecord) : Json := .array (found.map (·.toJson))

/-- A view of a component. -/
def view (c : Component) : ComponentView → Except TooManyDigits Json
  | .detail => .ok c.detail
  | .documentation => .ok c.documentation
  | .examples => c.examples

/-- The answer to a question. -/
def answer (c : Catalog) : CatalogQuestion → Except QuestionFault (Except TooManyDigits Json)
  | .stats => .ok (.ok c.stats)
  | .components =>
    let found := c.components
    .ok (.ok (.object [("total", .nat found.length),
      ("components", .array (found.map (·.summary)))]))
  | .search query =>
    match c.search query with
    | .error fault => .error (.query fault)
    | .ok found =>
      .ok (.ok (.object [("query", .string (Text.strip query)), ("total", .nat found.length),
        ("results", storyArray found)]))
  | .stories filter =>
    let found := c.filter filter
    .ok (.ok (.object [("total", .nat found.length), ("filtered", .bool filter.isGiven),
      ("stories", storyArray found),
      ("metadata", .object [("generatedAt", .string c.generatedAt.text),
        ("extractedFrom", .string c.extractedFrom.name)])]))
  | .component id shown =>
    match c.component? id with
    | none => .error (.noComponent id)
    | some found => .ok (view found shown)

end CatalogQuestion

namespace Report

/-- The report of a question without an answer. -/
def ofQuestionFault : QuestionFault → Report
  | .query error => misuse ("Invalid value for QUERY: " ++ error.message)
  | .noComponent id => nothing (Text.concat ["Component '", id, "' not found"])

/-- The report of a run without an outcome. -/
def ofRunFault (output : Path) : RunFault → Report
  | .extraction (.config message context) =>
    misconfigured (ExtractionError.config message context).text
  | .extraction error => unexpected error.text
  | .save reason =>
    let message := reason.message output
    match reason with
    | .file _ | .disk => fault .diskFault ("Runtime error: " ++ message)
    | .number | .encoding _ => unexpected message

/-- What a user can do where no stories are found. -/
def hint : Text :=
  "Hint: start Storybook (npm run storybook) or build it (npm run build-storybook)."

/-- The report of an outcome whose catalog is saved at a path. -/
def ofOutcome (output : Path) (o : Outcome) : Report :=
  if o.hasSucceeded then encodable (lines [o.summary (some output.text)])
  else
    let r := encodable (lines [o.summary none])
    if r.status = .success then { r with status := .nothingFound, errors := [hint] } else r

/-- The report of work that was interrupted. -/
def ofInterruption : Interruption → Report
  | .cutOff => unexpected "out of time"
  | .failed failure => unexpected failure.text

/-- How a command line is written. -/
def usage (form : CommandForm) : Text :=
  Text.join " " (("Usage: storymeta" : Text) :: form.name :: "[OPTIONS]" ::
    form.grammar.operand.toList)

/-- The options of a grammar, a line for each. -/
def optionLines (g : Grammar) : List Text :=
  g.options.map fun option ↦ ("  " : Text) ++ Text.join ", " option.names

/-- How the command line is written before a command is named. -/
def guide : List Text :=
  ("Usage: storymeta [OPTIONS] COMMAND [ARGS]..." : Text) :: [] ::
    optionLines Invocation.grammar ++ [] :: CommandForm.all.map fun form ↦
      ("  " : Text) ++ form.name

/-- How a command line is written, in general or for a command. -/
def help : Option CommandForm → Report
  | none => lines guide
  | some form => lines ([usage form, []] ++ optionLines form.grammar)

end Report

/-- The home directories that a command knows in a session. -/
def Surroundings.homes (w : Surroundings) (s : Session) : Homes := ⟨w.environment.home, s.homeOf⟩

namespace CatalogQuestion

/-- The report of a question about the catalog that settings lead to. -/
def report (w : Surroundings) (s : Session) (given : Fields Json) (question : CatalogQuestion) :
    Report :=
  match Settings.load s.files w.environment given with
  | .error fault => .ofSettingsFault fault
  | .ok settings =>
    match CatalogLoader.ofSettings settings s.files.working (w.homes s) with
    | .error failure => .unexpected failure.text
    | .ok loader =>
      match (loader.load s.files w.time s.now .empty).1 with
      | none => .nothing "No catalog found. Run \x60storymeta extract\x60 first."
      | some catalog =>
        match question.answer catalog with
        | .error fault => .ofQuestionFault fault
        | .ok value => .document value

end CatalogQuestion

/-- The report of a search for a running Storybook on a host. -/
def Port.report (host : Text) (s : Session) : Report × Session :=
  match (Port.detect host Port.common).perform s with
  | (.error interruption, s) => (.ofInterruption interruption, s)
  | (.ok none, s) => (.fault .nothingFound "No Storybook dev server found", s)
  | (.ok (some port), s) => (.lines [Text.ofInt port], s)

/-- What an extraction needs: its context, its plan, where the catalog is saved, and whether the
server has still to be found. -/
structure Preparation where
  context : ExtractionContext
  plan : ExtractionPlan
  output : Path
  seeksServer : Bool

namespace Preparation

/-- Where a catalog is saved: where the command says, else where the settings do. -/
def outputPath (working : Path) (homes : Homes) (settings : Settings) (output : Option Text) :
    Except Report Path :=
  match output.filter (!·.isEmpty) with
  | some t => .ok (Path.resolve working (Path.ofText t))
  | none => (settings.outputPath working homes).mapError fun fault ↦ .unexpected fault.message

/-- Prepares an extraction. -/
def make (w : Surroundings) (s : Session) (given : Fields Json) (mode : ExtractionMode)
    (enhance : Bool) (output : Option Text) (usesSource : Bool) : Except Report Preparation := do
  let settings ← (Settings.load s.files w.environment given).mapError Report.ofSettingsFault
  let output ← outputPath s.files.working (w.homes s) settings output
  let context ←
    (ExtractionContext.ofSettings settings s.files.working (w.homes s) none none usesSource true
      false).mapError fun failure ↦ Report.unexpected failure.text
  return {
    context, output
    plan := { mode, enhance, output := some output, limit := settings.runLimit.map .float }
    seeksServer :=
      (mode = .dev || enhance) && !settings.isGiven "url" && !settings.isGiven "port" }

/-- The URL of a port on the local host. -/
def localUrl (port : Int) : Text :=
  Text.concat ["http://", CommandForm.localHost, ":", Text.ofInt port]

/-- The context, with the server that answers on the local host if one has to be found. -/
def findServer (p : Preparation) (s : Session) : Except Interruption ExtractionContext × Session :=
  if p.seeksServer then
    let (port, s) := (Port.detect CommandForm.localHost Port.common).perform s
    (port.map fun port ↦ { p.context with serverUrl := port.map localUrl }, s)
  else (.ok p.context, s)

/-- The report of a prepared extraction. -/
def report (time : Binary64) (p : Preparation) (s : Session) : Report × Session :=
  match p.findServer s with
  | (.error interruption, s) => (.ofInterruption interruption, s)
  | (.ok context, s) =>
    match p.plan.run context time time .none .empty s with
    | (.error fault, _, s) => (.ofRunFault p.output fault, s)
    | (.ok outcome, _, s) => (.ofOutcome p.output outcome, s)

end Preparation

/-- Runs a command. -/
def Command.run (w : Surroundings) (s : Session) : Command → Report × Session
  | .ask question given => (question.report w s given, s)
  | .detectPort host => Port.report host s
  | .extract given mode enhance output usesSource =>
    match Preparation.make w s given mode enhance output usesSource with
    | .error report => (report, s)
    | .ok p => p.report w.time s

/-- The version of the program. -/
def programVersion : Text := "0.1.0"

/-- Runs what arguments ask for. -/
def Invocation.run (w : Surroundings) (s : Session) (arguments : List Text) : Report × Session :=
  match Invocation.read s.files arguments with
  | .error fault => (.misuse fault.message, s)
  | .ok .guide => ({ status := .badUse, errors := Report.guide }, s)
  | .ok (.help form) => (.help form, s)
  | .ok .version => (.lines [("storymeta, version " : Text) ++ programVersion], s)
  | .ok (.command c) => c.run w s

end StoryCatalog
