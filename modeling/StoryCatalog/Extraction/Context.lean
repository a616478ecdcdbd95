import StoryCatalog.Browser.Introspection
import StoryCatalog.Index.File
import StoryCatalog.Settings.Basic

/-!
# The context of an extraction

What strategies need to know: the directories of the project, the server, what is installed, and how
long things may take. The index of the server is fetched at most once in a session, whatever comes
of it (`liveIndex_of_known`).
-/

namespace StoryCatalog

/-- What an extraction starts from. Limits are in seconds. -/
structure ExtractionContext where
  projectRoot : Path
  sourceDirectory : Option Path
  outputDirectory : Option Path
  serverUrl : Option Text
  /-- Whether source files can be parsed. -/
  hasParser : Bool
  /-- Whether stories can be introspected. -/
  hasBrowser : Bool
  pageLimit : Number
  storyLimit : Number
  indexLimit : Number
  headless : Bool
  requiresSource : Bool

namespace ExtractionContext

/-- The text of a directory that may be missing. -/
def directoryText : Option Path → Text
  | some p => p.text
  | none => "None"

/-- Whether there is a directory at a path. -/
def isDirectoryAt (fs : FileSystem) (directory : Option Path) : Bool :=
  (directory.map fs.isDirectory).getD false

/-- Checks that the directories that an extraction depends on are there. -/
def validate (c : ExtractionContext) (fs : FileSystem) : Except ExtractionError Unit :=
  if !fs.isDirectory c.projectRoot then
    .error (.config ("Project root does not exist: " ++ c.projectRoot.text)
      [("project_root", .string c.projectRoot.text)])
  else if c.requiresSource && !isDirectoryAt fs c.sourceDirectory then
    .error (.config ("Source directory does not exist: " ++ directoryText c.sourceDirectory)
      [("source_dir", .string (directoryText c.sourceDirectory))])
  else .ok ()

/-- Whether a server is given. -/
def hasServer (c : ExtractionContext) : Bool := !(c.serverUrl.getD []).isEmpty

/-- The index of the server, unless there is no server or it gives none. -/
def liveIndex (c : ExtractionContext) : Work (Option StoryIndex) := do
  match c.serverUrl with
  | none => return none
  | some url =>
    match (← get).liveIndex with
    | .known index => return index
    | .unknown =>
      modify fun s ↦ { s with liveIndex := .known none }
      match ← StoryIndex.fetch url with
      | .error _ => return none
      | .ok index =>
        modify fun s ↦ { s with liveIndex := .known (some index) }
        return some index

/-- What introspects the stories of the server. -/
def introspector (c : ExtractionContext) : Introspector :=
  ⟨c.serverUrl.getD [], c.storyLimit, c.pageLimit⟩

/-- Fails as a piece of work does. -/
def orFailure {ε α : Type} (failure : ε → Failure) (r : Except ε α) : Except Failure α :=
  r.mapError failure

/-- The context that settings make. A server may be given beside them, and the source directory may
be required or left out; if nothing is said, it is required when it is set. -/
def ofSettings (s : Settings) (working : Path) (homes : Homes) (serverUrl : Option Text)
    (requiresSource : Option Bool) (usesSource hasParser hasBrowser : Bool) :
    Except Failure ExtractionContext := do
  let projectRoot ← orFailure .home (s.resolvedProjectRoot working homes)
  let sourceDirectory ←
    if usesSource then (orFailure .home (s.resolvedSourceDirectory working homes)).map some
    else .ok none
  let outputDirectory ← orFailure .home (s.resolvedOutputDirectory working homes)
  let server ←
    match serverUrl.filter (!·.isEmpty) with
    | some url => .ok url
    | none => orFailure .url s.effectiveUrl
  return {
    projectRoot, sourceDirectory, outputDirectory := some outputDirectory
    serverUrl := some server
    hasParser, hasBrowser
    pageLimit := .float s.pageLimit
    storyLimit := .float s.storyLimit
    indexLimit := .float s.indexLimit
    headless := s.headless
    requiresSource := requiresSource.getD (s.isGiven "source_dir") && usesSource }

/-- Once known, the index of the server is not asked for again. -/
theorem liveIndex_of_known (c : ExtractionContext) (s : Session) {index : Option StoryIndex}
    {url : Text} (hurl : c.serverUrl = some url) (h : s.liveIndex = .known index) :
    c.liveIndex.perform s = (.ok index, s) := by
  cases s; cases c
  simp only at hurl h
  subst hurl h
  rfl

end ExtractionContext

end StoryCatalog
