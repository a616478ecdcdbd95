import StoryCatalog.Catalog.Basic
import StoryCatalog.Files
import StoryCatalog.Story.FromFile

/-!
# Discovering story files

The story files below a directory, in the order of their paths, and the catalog of their stories.
Files of installed packages do not count. A file that cannot be parsed is left out and does not
spoil the others.
-/

namespace StoryCatalog

namespace StoryFile

/-- The endings of the names of story files. -/
def suffixes : List Text := [".ts", ".tsx", ".js", ".jsx", ".mjs", ".cjs"]

/-- Whether a name is that of a story file. -/
def isName (name : Text) : Bool :=
  suffixes.any fun suffix ↦ Text.endsWith name (".stories" ++ suffix)

/-- The name of directories of installed packages. -/
def excludedName : Text := "node_modules"

/-- Whether names below the source directory lead to a story file. -/
def isStoryPath (names : List Text) : Bool :=
  isName (names.getLast?.getD []) && !names.contains excludedName

/-- The story files below a directory, in the order of their paths. -/
def discover (fs : FileSystem) (directory : Path) : List Path :=
  match fs.locate directory with
  | .error _ => []
  | .ok names =>
    let found := ((fs.filesBelow names).filter isStoryPath).map fun below ↦
      directory.join ⟨[], below⟩
    found.mergeSort fun p q ↦ !Path.isBefore q p

/-- The path of a file as imports write it: relative to the project's root, if the file is below
it. -/
def importPath (fs : FileSystem) (p projectRoot : Path) : Text :=
  let whole := Path.resolve fs.working p
  let relative : Path :=
    match whole.below? (Path.resolve fs.working projectRoot) with
    | some names => ⟨[], names⟩
    | none => p
  Text.concat ["./", relative.text]

/-- The story file that a file holds, with its text. -/
def ofFile (fs : FileSystem) (p : Path) : Except ReadError (StoryFile × Text) := do
  match fs.readText p with
  | .error fault => .error (.unreadable (fault.message p))
  | .ok source => return (← read (some p) source, source)

/-- Whether a file that gives this error is left out of a catalog; any other error ends the
extraction. -/
def ReadError.isSkipped : ReadError → Bool
  | .unreadable _ => true
  | .fault _ => true
  | .encoding _ => false
  | .literal _ => false

/-- The records of the story files at paths, one file after another. -/
def recordsOf (fs : FileSystem) (projectRoot : Path) :
    List Path → Except ReadError (List StoryRecord)
  | [] => .ok []
  | p :: rest =>
    match ofFile fs p with
    | .ok (file, source) => do
      let records := file.records (importPath fs p projectRoot) source
      return records ++ (← recordsOf fs projectRoot rest)
    | .error error => if error.isSkipped then recordsOf fs projectRoot rest else .error error

/-- The catalog of the stories in the files at paths. -/
def catalogOf (fs : FileSystem) (projectRoot : Path) (now : Timestamp) (paths : List Path) :
    Except ReadError Catalog := do
  return Catalog.ofRecords .sourceFiles now (← recordsOf fs projectRoot paths)

end StoryFile

end StoryCatalog
