import StoryCatalog.Index.Remote
import StoryCatalog.Url.Percent

/-!
# Introspection of a running Storybook

A page of a browser first loads Storybook's manager, and then the frame of one story after another,
whose store tells what the story was given. A story that gives nothing within its limit is an error
of that story alone; a browser that cannot be launched or closed ends the work.
-/

namespace StoryCatalog

/-- Which Storybook is introspected, and the seconds that one story and the first page may take. -/
structure Introspector where
  base : Text
  storyLimit : Number
  pageLimit : Number

namespace Introspector

/-- The default limits of a story and of the first page. -/
def defaultLimits : Number × Number := (.float (.ofInt 5), .float (.ofInt 30))

/-- The element of the manager that holds the preview. -/
def previewSelector : Text := "#storybook-preview-iframe"

/-- The milliseconds that the manager may take to show its preview. -/
def previewLimit : Nat := 10000

/-- The milliseconds that a story is given to settle. -/
def settleTime : Nat := 100

/-- The packages that a browser needs. -/
def packages : List Text := ["playwright"]

/-- A number of seconds in milliseconds. -/
def milliseconds : Number → Number
  | .int n => .int (n * 1000)
  | .float x => .float (x.mul (.ofInt 1000))

/-- The URL of the frame that shows one story. -/
def frameUrl (base storyId : Text) : Except EncodeFault Text :=
  match EncodeFault.find? storyId with
  | some fault => .error fault
  | none =>
    .ok (Text.concat [StoryIndex.baseOf base, "/iframe.html?id=",
      Text.percentEncoded CodePoint.isUnreserved storyId, "&viewMode=story"])

/-- The error of a story. -/
def storyError (storyId : Text) (parts : List Text) : ExtractionError :=
  .introspection (Text.concat parts) (some storyId)

/-- How a fault of the browser itself ends the work; its failure has no code. -/
def interruptionOf : BrowserFault → Interruption
  | .fails reason => .failed (.extraction (.general reason none []))
  | .hangs => .cutOff

/-- Goes on unless there is a fault of the browser. -/
def unlessFault : Option BrowserFault → Work Unit
  | none => return ()
  | some fault => throw (interruptionOf fault)

/-- Closes the browser. -/
def close : Work Unit := do
  let s ← get
  unlessFault (s.page.bind (·.closeFault s.calls))

/-- Whether the manager loads in a page and shows its preview. -/
def loadManager (i : Introspector) (page : LivePage) : Work Bool := do
  let s ← get
  Work.note (.goto (StoryIndex.baseOf i.base) "networkidle" (milliseconds i.pageLimit))
  Work.wait (page.delay s.calls)
  if (page.shows s.calls).loads then
    let s ← get
    Work.note (.waitForSelector previewSelector previewLimit)
    return (page.shows s.calls).hasPreview
  else return false

/-- Launches the browser and loads the manager. If it does not load, the browser is closed again. -/
def openManager (i : Introspector) : Work (Except ExtractionError Unit) := do
  match (← get).page with
  | none => return .error (.dependency "browser" packages)
  | some page =>
    unlessFault page.launchFault
    if ← i.loadManager page then return .ok ()
    close
    return .error
      (.introspection ("Storybook did not load at " ++ StoryIndex.baseOf i.base) none)

/-- The error of a story that takes too long. -/
def timeoutError (i : Introspector) (storyId : Text) : ExtractionError :=
  storyError storyId
    ["Story ", storyId, " timed out after ", ExtractionError.numberText i.storyLimit, "s"]

/-- The data of a story, unless the store gives something else. -/
def dataOf (storyId : Text) : Json → Except ExtractionError (Fields Json)
  | .object fields => .ok fields
  | _ => .error (storyError storyId ["Story store has no entry for ", storyId])

/-- What the store of a page knows of a story. -/
def introspect (i : Introspector) (storyId : Text) :
    Work (Except ExtractionError (Fields Json)) := do
  let s ← get
  match s.page with
  | none => return .error (storyError storyId ["Introspector is not open"])
  | some page =>
    if Work.isOver i.storyLimit then return .error (i.timeoutError storyId)
    match frameUrl (StoryIndex.baseOf i.base) storyId with
    | .error fault =>
      return .error (storyError storyId ["Story ", storyId, " failed: ", fault.message])
    | .ok url =>
      Work.note (.goto url "domcontentloaded" (milliseconds i.storyLimit))
      Work.note (.waitForTimeout settleTime)
      let (answer, seconds) := page.visit s.calls i.storyLimit.toBinary64 storyId
      Work.wait seconds
      match answer with
      | .value data => return dataOf storyId data
      | .fails reason =>
        return .error (storyError storyId ["Story ", storyId, " failed: ", reason])
      | .hangs => return .error (i.timeoutError storyId)

end Introspector

end StoryCatalog
