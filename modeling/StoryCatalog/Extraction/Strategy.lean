import StoryCatalog.Extraction.Context
import StoryCatalog.Story.Discovery
import StoryCatalog.Story.FromIndex

/-!
# Strategies

A strategy is one way to come by a catalog: parsing the source files, reading the index of a built
Storybook, introspecting a running one, or making do with its index. Whether one applies is told
without asking the server.
-/

namespace StoryCatalog

/-- A way to come by a catalog. -/
structure Strategy where
  name : Text
  provenance : Provenance
  isApplicable : ExtractionContext → FileSystem → Bool
  extract : ExtractionContext → Work (Option Catalog)

namespace Strategy

/-- The failure that an error of a story file is, if it ends the extraction. -/
def failureOf (p : Option Path) : StoryFile.ReadError → Failure
  | .literal error => .literal error
  | .encoding fault => .encoding fault
  | error => .extraction (.sourceParse p (error.message p))

/-- The catalog of the source files, if there are any. -/
def extractSources (c : ExtractionContext) : Work (Option Catalog) := do
  match c.sourceDirectory with
  | none => return none
  | some directory =>
    let s ← get
    let paths := StoryFile.discover s.files directory
    if paths.isEmpty then return none
    match StoryFile.catalogOf s.files c.projectRoot s.now paths with
    | .ok catalog => return some catalog
    | .error error => Work.fail (failureOf none error)

/-- Parses the source files without running them. -/
def sourceFiles : Strategy where
  name := "source-files"
  provenance := .sourceFiles
  isApplicable c fs := c.hasParser && ExtractionContext.isDirectoryAt fs c.sourceDirectory
  extract := extractSources

/-- The catalog of an index. -/
def catalogOfIndex (provenance : Provenance) (now : Timestamp) (index : StoryIndex) : Catalog :=
  Catalog.ofRecords provenance now (index.all.fields.map fun (key, entry) ↦ entry.toRecord key)

/-- The catalog of a built Storybook, if there is one. -/
def extractBuilt (c : ExtractionContext) : Work (Option Catalog) := do
  let s ← get
  match c.outputDirectory.bind (StoryIndex.find? s.files) with
  | none => return none
  | some p =>
    match StoryIndex.read s.files p with
    | .ok index => return some (catalogOfIndex .builtStorybook s.now index)
    | .error _ => return some (.empty .builtStorybook s.now)

/-- Reads the index of a built Storybook. -/
def builtStorybook : Strategy where
  name := "built-storybook"
  provenance := .builtStorybook
  isApplicable c fs := (c.outputDirectory.bind (StoryIndex.find? fs)).isSome
  extract := extractBuilt

/-- The record of an entry, and whether its story could be introspected. -/
def introspectEntry (i : Introspector) (key : Text) (entry : IndexEntry) :
    Work (StoryRecord × Bool) := do
  match ← i.introspect (if entry.id.isEmpty then key else entry.id) with
  | .error _ => return (entry.toRecord key, false)
  | .ok fields =>
    match entry.toRuntimeRecord key (.object fields) with
    | .ok record => return (record, true)
    | .error _ => Work.fail .tooManyDigits

/-- The records of entries, and whether any of their stories could be introspected. -/
def introspectAll (i : Introspector) : List (Text × IndexEntry) → Work (List StoryRecord × Bool)
  | [] => return ([], false)
  | (key, entry) :: rest => do
    let (record, isDeep) ← introspectEntry i key entry
    let (records, isAnyDeep) ← introspectAll i rest
    return (record :: records, isDeep || isAnyDeep)

/-- Loads the manager, introspects all stories, and closes the browser whatever comes of them;
nothing if Storybook does not load. -/
def openAndIntrospect (i : Introspector) (entries : List (Text × IndexEntry)) :
    Work (Option (List StoryRecord × Bool)) := do
  match ← i.openManager with
  | .error (.introspection ..) => return none
  | .error error => Work.fail (.extraction error)
  | .ok () =>
    let result ← try introspectAll i entries finally Introspector.close
    return some result

/-- The catalog of a running Storybook with what its stories tell; nothing if none tells more than
the index. -/
def extractDeep (c : ExtractionContext) : Work (Option Catalog) := do
  match ← c.liveIndex with
  | none => return none
  | some index =>
    if index.size = 0 then return none
    match ← openAndIntrospect c.introspector index.all.fields with
    | some (records, true) =>
      return some (Catalog.ofRecords .runningStorybook (← get).now records)
    | _ => return none

/-- Introspects every story of a running Storybook. -/
def runningStorybook : Strategy where
  name := "running-storybook-deep"
  provenance := .runningStorybook
  isApplicable c _ := c.hasBrowser && c.hasServer
  extract := extractDeep

/-- The catalog of the index of a running Storybook, if it gives one. -/
def extractBasic (c : ExtractionContext) : Work (Option Catalog) := do
  match ← c.liveIndex with
  | none => return none
  | some index => return some (catalogOfIndex .storybookIndex (← get).now index)

/-- Reads the index of a running Storybook. -/
def storybookIndex : Strategy where
  name := "storybook-index-basic"
  provenance := .storybookIndex
  isApplicable c _ := c.hasServer
  extract := extractBasic

end Strategy

/-- Which strategies are tried: all, or only the one for a built Storybook. -/
inductive ExtractionMode where
  | dev
  | build
  deriving DecidableEq, Repr

namespace ExtractionMode

/-- The word for a mode. -/
def name : ExtractionMode → Text
  | .dev => "dev"
  | .build => "build"

/-- The mode that a word names. -/
def ofName? (t : Text) : Option ExtractionMode := [dev, build].find? (·.name == t)

/-- The strategies of a mode, in the order in which they are tried. -/
def strategies : ExtractionMode → List Strategy
  | .dev => [.sourceFiles, .builtStorybook, .runningStorybook, .storybookIndex]
  | .build => [.builtStorybook]

end ExtractionMode

end StoryCatalog
