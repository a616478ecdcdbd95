import StoryCatalog.Files
import StoryCatalog.Index.Basic

/-!
# Index files

The story index of a built Storybook stands in one of two files of its directory. `find?` looks for
the first one that is an index, `read` reads one and says why it cannot.
-/

namespace StoryCatalog

namespace StoryIndex

/-- The names of index files, the preferred one first. -/
def fileNames : List Text := ["index.json", "stories.json"]

/-- Why a file is no story index: the file system, its bytes or its text are at fault, or its
value is. -/
inductive FileError where
  | unreadable (fault : FileFault)
  | encoding (fault : DecodeFault)
  | json (fault : Json.ReadError)
  | value (error : ReadError)

/-- The index that a file holds. -/
def read (fs : FileSystem) (p : Path) : Except FileError StoryIndex :=
  match fs.readJson p with
  | .error (.text (.file fault)) => .error (.unreadable fault)
  | .error (.text (.encoding fault)) => .error (.encoding fault)
  | .error (.json fault) => .error (.json fault)
  | .ok value =>
    match ofJson value with
    | .error error => .error (.value error)
    | .ok index => .ok index

/-- The first file of a directory that holds an index. -/
def find? (fs : FileSystem) (directory : Path) : Option Path :=
  (fileNames.map directory.child).find? fun p ↦
    fs.isFile p &&
      match read fs p with
      | .ok _ => true
      | .error _ => false

/-- Whether an error is one of the index: the bytes of the file and numbers that are too long are
not. -/
def FileError.isIndexError : FileError → Bool
  | .unreadable _ => true
  | .encoding _ => false
  | .json (.tooManyDigits _) => false
  | .json (.malformed ..) => true
  | .value _ => true

/-- The wording of an error of the file at a path. -/
def FileError.message (path : Path) : FileError → Text
  | .unreadable fault => Text.concat ["Cannot read ", path.text, ": ", fault.message path]
  | .encoding fault => fault.message
  | .json (.tooManyDigits count) => (Json.ReadError.tooManyDigits count).message
  | .json fault => Text.concat ["Malformed JSON in ", path.text, ": ", fault.message]
  | .value error => error.message

end StoryIndex

end StoryCatalog
